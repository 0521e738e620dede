import NetLab.Json.Basic

/-!
# Canonical values

The members of an object are a list, which could bind a name twice or in another order.  A value is
`Canonical` if they are in ascending order at every depth.  What is built from canonical values by
`Json.ofMembers` and its like is canonical; what comes from elsewhere is made so by `Json.normal`,
which binds the members of each object one after the other.
-/

namespace NetLab.Json

/-- The members of every object in the value are in ascending order of their names. -/
inductive Canonical : Json → Prop where
  | null : Canonical .null
  | bool (value : Bool) : Canonical (.bool value)
  | number (value : Number) : Canonical (.number value)
  | string (value : String) : Canonical (.string value)
  | array {items : List Json} (hitems : ∀ item ∈ items, Canonical item) : Canonical (.array items)
  | object {members : List (String × Json)} (hascending : Assoc.Ascending members)
      (hmembers : ∀ member ∈ members, Canonical member.2) : Canonical (.object members)

namespace Canonical

attribute [simp] null bool number string

@[simp]
theorem int (value : Int) : Canonical (.int value) := number _

@[simp]
theorem nat (value : Nat) : Canonical (.nat value) := number _

@[simp]
theorem array_iff {items : List Json} :
    Canonical (.array items) ↔ ∀ item ∈ items, Canonical item := by
  constructor
  · rintro (_ | _ | _ | _ | hitems)
    exact hitems
  · exact array

theorem object_iff {members : List (String × Json)} :
    Canonical (.object members) ↔
      Assoc.Ascending members ∧ ∀ member ∈ members, Canonical member.2 := by
  constructor
  · rintro (_ | _ | _ | _ | _ | ⟨hascending, hmembers⟩)
    exact ⟨hascending, hmembers⟩
  · exact fun h => object h.1 h.2

@[simp]
theorem object_nil : Canonical (.object []) := object Assoc.ascending_nil nofun

/-! ## Built values -/

@[simp]
theorem ofMembers {members : List (String × Json)}
    (h : ∀ member ∈ members, Canonical member.2) : Canonical (.ofMembers members) :=
  object (Assoc.ascending_ofList members) fun member hmem => h member (Assoc.mem_of_mem_ofList hmem)

@[simp]
theorem ofOptional {members : List (String × Option Json)}
    (h : ∀ member ∈ members, ∀ value, member.2 = some value → Canonical value) :
    Canonical (.ofOptional members) := by
  refine ofMembers fun member hmem => ?_
  obtain ⟨⟨name, value?⟩, hentry, hvalue⟩ := List.mem_filterMap.1 hmem
  simp only [Option.map_eq_some_iff] at hvalue
  obtain ⟨value, hvalue, rfl⟩ := hvalue
  exact h _ hentry value hvalue

@[simp]
theorem ofStringMap (m : StringMap) : Canonical (.ofStringMap m) := by
  refine object ?_ fun member hmem => ?_
  · have h := m.ascending
    unfold Assoc.Ascending at h ⊢
    rwa [List.pairwise_map]
  · obtain ⟨entry, -, rfl⟩ := List.mem_map.1 hmem
    exact string _

@[simp]
theorem ofStrings (texts : List String) : Canonical (.ofStrings texts) := by
  refine array fun item hmem => ?_
  obtain ⟨text, -, rfl⟩ := List.mem_map.1 hmem
  exact string text

/-! ## Members -/

theorem get {value : Json} (h : Canonical value) (name : String) : Canonical (value.get name) := by
  cases h with
  | @object members _ hmembers =>
    have hget : (Json.object members).get name = (Assoc.find? name members).getD .null := rfl
    rw [hget]
    cases hfind : Assoc.find? name members with
    | none => exact null
    | some value => exact hmembers _ (Assoc.mem_of_find? hfind)
  | null | bool _ | number _ | string _ | array _ => exact null

theorem insert {members : List (String × Json)} {name : String} {value : Json}
    (h : Canonical (.object members)) (hvalue : Canonical value) :
    Canonical (.object (Assoc.insert name value members)) := by
  obtain ⟨hascending, hmembers⟩ := object_iff.1 h
  refine object (Assoc.ascending_insert hascending) fun member hmem => ?_
  rcases Assoc.mem_insert hmem with rfl | hmem
  · exact hvalue
  · exact hmembers member hmem

theorem erase {members : List (String × Json)} (h : Canonical (.object members)) (name : String) :
    Canonical (.object (Assoc.erase name members)) := by
  obtain ⟨hascending, hmembers⟩ := object_iff.1 h
  exact object (Assoc.ascending_erase hascending) fun member hmem =>
    hmembers member (List.mem_filter.1 hmem).1

end Canonical

/-! ## Normal forms -/

mutual

/-- The value with the members of every object bound one after the other. -/
def normal : Json → Json
  | .array items => .array (normalItems items)
  | .object members => .ofMembers (normalMembers members)
  | value => value
termination_by structural value => value

/-- The normal forms of items. -/
def normalItems : List Json → List Json
  | [] => []
  | item :: rest => normal item :: normalItems rest
termination_by structural items => items

/-- The members with the normal forms of their values. -/
def normalMembers : List (String × Json) → List (String × Json)
  | [] => []
  | (name, value) :: rest => (name, normal value) :: normalMembers rest
termination_by structural members => members

end

mutual

theorem canonical_normal : (value : Json) → value.normal.Canonical
  | .null => .null
  | .bool value => .bool value
  | .number value => .number value
  | .string value => .string value
  | .array items => .array (canonical_normalItems items)
  | .object members => .ofMembers (canonical_normalMembers members)

theorem canonical_normalItems : (items : List Json) → ∀ item ∈ normalItems items, item.Canonical
  | [] => nofun
  | item :: rest => List.forall_mem_cons.2 ⟨canonical_normal item, canonical_normalItems rest⟩

theorem canonical_normalMembers : (members : List (String × Json)) →
    ∀ member ∈ normalMembers members, member.2.Canonical
  | [] => nofun
  | (_, value) :: rest =>
    List.forall_mem_cons.2 ⟨canonical_normal value, canonical_normalMembers rest⟩

end

end NetLab.Json
