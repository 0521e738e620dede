import NetLab.Proofs.Json.Canonical

/-!
# Paths into a value

A path leads from a value to one of its parts, at each step to the member of a name or to the item
at a place (`lookup?`).  `changeAt` changes the part that a path leads to.  Where the path does not
lead, the value is alike after that (`alike_lookup?_changeAt`): what stands beside the path is the
same, and what the path leads through has as many members or items as before.
-/

namespace NetLab.Json

/-- A step of a path: to the member of a name, or to the item at a place. -/
inductive Index where
  | member (name : String)
  | item (place : Nat)
deriving DecidableEq

/-- The part of an object or array that a step leads to. -/
def part? (value : Json) : Index → Option Json
  | .member name => value.get? name
  | .item place => value.asArray?.bind (·[place]?)

@[simp]
theorem part?_null (index : Index) : Json.null.part? index = none := by cases index <;> rfl

/-- The part of a value that a path leads to. -/
def lookup? : Json → List Index → Option Json
  | value, [] => some value
  | value, index :: rest => (value.part? index).bind (lookup? · rest)

@[simp] theorem lookup?_nil (value : Json) : value.lookup? [] = some value := rfl

@[simp]
theorem lookup?_cons (value : Json) (index : Index) (rest : List Index) :
    value.lookup? (index :: rest) = (value.part? index).bind (·.lookup? rest) := rfl

theorem lookup?_append (value : Json) (path rest : List Index) :
    value.lookup? (path ++ rest) = (value.lookup? path).bind (·.lookup? rest) := by
  induction path generalizing value with
  | nil => rfl
  | cons index path ih =>
    rw [List.cons_append, lookup?_cons, lookup?_cons, Option.bind_assoc]
    exact congrArg _ (funext fun part => ih part)

/-! ## Changing a part -/

/-- The value with the part at one step changed; as it is, if there is no such part. -/
def changePart (f : Json → Json) : Json → Index → Json
  | .object members, .member name =>
    .object (members.map fun (key, value) => (key, if key = name then f value else value))
  | .array items, .item place => .array (items.modify place f)
  | value, _ => value

/-- The value with the part that a path leads to changed; as it is, if there is no such part. -/
def changeAt (f : Json → Json) : Json → List Index → Json
  | value, [] => f value
  | value, index :: rest => value.changePart (changeAt f · rest) index

/-- The object without the member of a name; anything else as it is. -/
def unset (value : Json) (name : String) : Json :=
  match value with
  | .object members => .object (Assoc.erase name members)
  | _ => value

theorem part?_set_object (members : List (String × Json)) (name : String) (value : Json)
    (index : Index) : ((object members).set name value).part? index =
      if index = .member name then some value else (object members).part? index := by
  cases index with
  | member other => simp [set, part?, get?, Std.LawfulEqCmp.compare_eq_iff_eq]
  | item place => simp [set, part?, asArray?]

theorem part?_unset (value : Json) (name : String) (index : Index) :
    (value.unset name).part? index =
      if index = .member name then none else value.part? index := by
  cases index with
  | member other => cases value <;> simp [unset, part?, get?, Std.LawfulEqCmp.compare_eq_iff_eq]
  | item place => cases value <;> simp [unset, part?, asArray?]

theorem part?_changePart (f : Json → Json) (value : Json) (index other : Index) :
    (value.changePart f index).part? other =
      if other = index then (value.part? index).map f else value.part? other := by
  cases index with
  | member name =>
    cases value with
    | object members =>
      cases other with
      | member other =>
        simp only [changePart, part?, get?, Index.member.injEq,
          Assoc.find?_map other fun key value => if key = name then f value else value]
        split <;> rename_i hname
        · rw [hname]
        · rw [Option.map_id']
      | item place => simp [changePart, part?, asArray?]
    | null | bool _ | number _ | string _ | array _ =>
      cases other <;> simp [changePart, part?, get?]
  | item place =>
    cases value with
    | array items =>
      cases other with
      | item other =>
        simp only [changePart, part?, asArray?, Option.bind_some, Index.item.injEq,
          List.getElem?_modify]
        split <;> rename_i hplace
        · simp [hplace]
        · simp [Ne.symm hplace]
      | member name => simp [changePart, part?, get?]
    | null | bool _ | number _ | string _ | object _ =>
      cases other <;> simp [changePart, part?, asArray?]

/-- At the end of the path stands the changed part. -/
theorem lookup?_changeAt_append (f : Json → Json) (value : Json) (path rest : List Index) :
    (value.changeAt f path).lookup? (path ++ rest) =
      (value.lookup? path).bind fun part => (f part).lookup? rest := by
  induction path generalizing value with
  | nil => rfl
  | cons index path ih =>
    rw [changeAt, List.cons_append, lookup?_cons, part?_changePart, if_pos rfl, lookup?_cons,
      Option.bind_assoc, Option.bind_map]
    exact congrArg _ (funext fun part => ih part)

/-- The values are equal, or objects or arrays of one size. -/
inductive Alike : Json → Json → Prop where
  | refl (value : Json) : Alike value value
  | array {items others : List Json} (hlength : items.length = others.length) :
      Alike (.array items) (.array others)
  | object {members others : List (String × Json)} (hlength : members.length = others.length) :
      Alike (.object members) (.object others)

theorem alike_changePart (f : Json → Json) (value : Json) (index : Index) :
    Alike value (value.changePart f index) := by
  unfold changePart
  split
  · exact .object (List.length_map _).symm
  · exact .array (List.length_modify ..).symm
  · exact .refl _

theorem rel_alike_refl (found : Option Json) : Option.Rel Alike found found := by
  cases found with
  | none => exact .none
  | some value => exact .some (.refl value)

/-- Where the path does not lead, a value is alike after the change. -/
theorem alike_lookup?_changeAt (f : Json → Json) (value : Json) {path other : List Index}
    (h : ¬ path <+: other) :
    Option.Rel Alike (value.lookup? other) ((value.changeAt f path).lookup? other) := by
  induction path generalizing value other with
  | nil => exact absurd List.nil_prefix h
  | cons index path ih =>
    cases other with
    | nil => exact .some (alike_changePart _ value index)
    | cons first rest =>
      rw [changeAt, lookup?_cons, lookup?_cons, part?_changePart]
      split <;> rename_i hfirst
      · subst hfirst
        have hrest : ¬ path <+: rest := fun hprefix => h (List.cons_prefix_cons.2 ⟨rfl, hprefix⟩)
        cases value.part? first with
        | none => exact .none
        | some part => exact ih part hrest
      · exact rel_alike_refl _

namespace Canonical

theorem unset {value : Json} (h : Canonical value) (name : String) :
    Canonical (value.unset name) := by
  cases value with
  | object members => exact h.erase name
  | null | bool _ | number _ | string _ | array _ => exact h

theorem changePart {f : Json → Json} (hf : ∀ value, Canonical value → Canonical (f value))
    {value : Json} (h : Canonical value) (index : Index) :
    Canonical (value.changePart f index) := by
  unfold Json.changePart
  split
  · rename_i members name
    obtain ⟨hascending, hmembers⟩ := object_iff.1 h
    refine object ?_ fun member hmem => ?_
    · unfold Assoc.Ascending at hascending ⊢
      rwa [List.pairwise_map]
    · obtain ⟨⟨key, value⟩, hentry, rfl⟩ := List.mem_map.1 hmem
      have hvalue : Canonical value := hmembers (key, value) hentry
      dsimp only
      split
      · exact hf value hvalue
      · exact hvalue
  · rename_i items place
    refine array fun item hmem => ?_
    obtain ⟨i, hi⟩ := List.mem_iff_getElem?.1 hmem
    rw [List.getElem?_modify] at hi
    obtain ⟨item, hitem, rfl⟩ := Option.map_eq_some_iff.1 hi
    have hvalue : Canonical item := array_iff.1 h item (List.mem_of_getElem? hitem)
    split
    · exact hf item hvalue
    · exact hvalue
  · exact h

/-- A change that keeps values canonical can be made in any part. -/
theorem changeAt {f : Json → Json} (hf : ∀ value, Canonical value → Canonical (f value))
    {value : Json} (h : Canonical value) (path : List Index) :
    Canonical (value.changeAt f path) := by
  induction path generalizing value with
  | nil => exact hf value h
  | cons index path ih => exact h.changePart (fun _ hpart => ih hpart) index

end Canonical

end NetLab.Json
