import Mathlib.Logic.Relation
import NetLab.Proofs.Json.Exact
import NetLab.Proofs.Json.Paths

/-!
# Subset comparison, path by path

`isSubset` walks over two values at once.  What it finds out can be said of each path on its own
(`isSubset_iff`): whatever the desired value has there is met by what the live value has there
(`MetBy`), be that nothing at all.

From this it is clear what may happen to the values.  A desired value is met by itself; what is
added to the live value beside what is desired is not looked up (`MetThroughout.adds`); and a
desired value with fewer members asks for less (`MetThroughout.drops`).  The comparison is not
transitive, though: `null` meets an empty object, and anything meets `null`.
-/

namespace NetLab.Json

/-! ## What is asked for at a path -/

/-- What is found in the live value, if anything, meets what is desired there, as far as this can be
seen without looking into the members or items. -/
inductive MetBy : (desired : Json) → (found : Option Json) → Prop where
  | null (found : Option Json) : MetBy .null found
  | bool (value : Bool) : MetBy (.bool value) (some (.bool value))
  | number (value : Number) : MetBy (.number value) (some (.number value))
  | string (value : String) : MetBy (.string value) (some (.string value))
  | array {items live : List Json} (hlength : items.length = live.length) :
      MetBy (.array items) (some (.array live))
  | object (members live : List (String × Json)) : MetBy (.object members) (some (.object live))
  | noItems {found : Option Json} (hfound : found = none ∨ found = some .null) :
      MetBy (.array []) found
  | noMembers {found : Option Json} (hfound : found = none ∨ found = some .null) :
      MetBy (.object []) found

namespace MetBy

/-- What is alike meets the same. -/
theorem of_rel {desired : Json} {found other : Option Json} (h : MetBy desired found)
    (halike : Option.Rel Alike found other) : MetBy desired other := by
  cases halike with
  | none => exact h
  | some halike =>
    cases halike with
    | refl _ => exact h
    | array hlength =>
      cases h with
      | null _ => exact .null _
      | array hitems => exact .array (hitems.trans hlength)
      | noItems hfound | noMembers hfound => simp at hfound
    | object _ =>
      cases h with
      | null _ => exact .null _
      | object members _ => exact .object members _
      | noItems hfound | noMembers hfound => simp at hfound

/-- What is alike is met by the same. -/
theorem of_alike {desired other : Json} {found : Option Json} (h : MetBy desired found)
    (halike : Alike desired other) : MetBy other found := by
  cases halike with
  | refl _ => exact h
  | array hlength =>
    cases h with
    | array hitems => exact .array (hlength.symm.trans hitems)
    | noItems hfound =>
      obtain rfl := List.eq_nil_of_length_eq_zero hlength.symm
      exact .noItems hfound
  | object hlength =>
    cases h with
    | object _ live => exact .object _ live
    | noMembers hfound =>
      obtain rfl := List.eq_nil_of_length_eq_zero hlength.symm
      exact .noMembers hfound

/-- An object meets what any other object does. -/
theorem of_object {desired : Json} {members : List (String × Json)}
    (h : MetBy desired (some (.object members))) (live : List (String × Json)) :
    MetBy desired (some (.object live)) := by
  cases h with
  | null _ => exact .null _
  | object asked _ => exact .object asked live
  | noItems hfound | noMembers hfound => simp at hfound

/-- What meets an object meets it without one of its members. -/
theorem unset {desired : Json} {found : Option Json} (h : MetBy desired found) (name : String) :
    MetBy (desired.unset name) found := by
  cases h with
  | object _ live => exact .object _ live
  | noMembers hfound => exact .noMembers hfound
  | null _ => exact .null _
  | bool value => exact .bool value
  | number value => exact .number value
  | string value => exact .string value
  | array hlength => exact .array hlength
  | noItems hfound => exact .noItems hfound

end MetBy

/-! ## The comparison at every path

A missing part of the live value is compared like `null`, so what is compared is `found.getD .null`
for what is `found` there. -/

variable {desired live : Json}

theorem metBy_of_isSubset {found : Option Json} (h : isSubset desired (found.getD .null) = true) :
    desired.MetBy found := by
  cases desired with
  | null => exact .null found
  | bool value | number value | string value =>
    cases found with
    | none => simp [isSubset] at h
    | some live =>
      obtain rfl : live = _ := by simpa [isSubset] using h
      constructor
  | array items =>
    cases found with
    | none =>
      obtain rfl : items = [] := by simpa [isSubset] using h
      exact .noItems (Or.inl rfl)
    | some live =>
      cases live with
      | null =>
        obtain rfl : items = [] := by simpa [isSubset] using h
        exact .noItems (Or.inr rfl)
      | array live => exact .array (isSubset_array.1 h).1
      | bool _ | number _ | string _ | object _ => simp [isSubset] at h
  | object members =>
    cases found with
    | none =>
      cases members with
      | nil => exact .noMembers (Or.inl rfl)
      | cons _ _ => simp [isSubset] at h
    | some live =>
      cases live with
      | null =>
        cases members with
        | nil => exact .noMembers (Or.inr rfl)
        | cons _ _ => simp [isSubset] at h
      | object live => exact .object members live
      | bool _ | number _ | string _ | array _ => cases members <;> simp [isSubset] at h

theorem isSubset_part? (h : isSubset desired live = true) {index : Index} {part : Json}
    (hpart : desired.part? index = some part) :
    isSubset part ((live.part? index).getD .null) = true := by
  cases index with
  | member name =>
    have hname := isSubset_get h name
    rwa [get_eq_of_get? hpart] at hname
  | item place =>
    cases desired with
    | array items =>
      obtain ⟨hplace, rfl⟩ := List.getElem?_eq_some_iff.1 hpart
      cases live with
      | array live =>
        obtain ⟨hlength, hitems⟩ := isSubset_array_iff_getElem.1 h
        have hlive : place < live.length := hlength ▸ hplace
        simpa [part?, asArray?, hlive] using hitems place hplace hlive
      | null =>
        obtain rfl : items = [] := by simpa [isSubset] using h
        cases hplace
      | bool _ | number _ | string _ | object _ => simp [isSubset] at h
    | null | bool _ | number _ | string _ | object _ => cases hpart

/-- Whatever a path leads to in the desired value is met by what it leads to in the live one. -/
def MetThroughout (desired : Json) (found : Option Json) : Prop :=
  ∀ path wanted, desired.lookup? path = some wanted → wanted.MetBy (found.bind (·.lookup? path))

namespace MetThroughout

variable {found : Option Json}

theorem root (h : MetThroughout desired found) : desired.MetBy found := by
  cases found <;> exact h [] desired rfl

theorem part (h : MetThroughout desired found) {index : Index} {part : Json}
    (hpart : desired.part? index = some part) :
    MetThroughout part (found.bind (·.part? index)) := by
  intro path wanted hwanted
  rw [Option.bind_assoc]
  exact h (index :: path) wanted (by rw [lookup?_cons, hpart]; exact hwanted)

end MetThroughout

theorem metThroughout_of_isSubset {found : Option Json}
    (h : isSubset desired (found.getD .null) = true) : MetThroughout desired found := by
  intro path wanted hwanted
  induction path generalizing desired found with
  | nil =>
    obtain rfl := Option.some.inj hwanted
    simpa using metBy_of_isSubset h
  | cons index rest ih =>
    obtain ⟨part, hpart, hrest⟩ := Option.bind_eq_some_iff.1 hwanted
    cases found with
    | none =>
      have hsubset : isSubset part ((none : Option Json).getD .null) = true := by
        simpa using isSubset_part? h hpart
      exact ih hsubset hrest
    | some live => exact ih (isSubset_part? h hpart) hrest

/-- The converse needs that each name of an object leads to its member, so that all members are seen
on some path. -/
theorem isSubset_of_metThroughout (hcanonical : desired.Canonical) {found : Option Json}
    (h : MetThroughout desired found) : isSubset desired (found.getD .null) = true := by
  induction hcanonical generalizing found with
  | null => exact isSubset_null _
  | bool value | number value | string value =>
    cases h.root
    simp [isSubset]
  | @array items _ ih =>
    cases h.root with
    | noItems hfound => rcases hfound with rfl | rfl <;> simp [isSubset]
    | @array _ live hlength =>
      refine isSubset_array_iff_getElem.2 ⟨hlength, fun place hplace hlive => ?_⟩
      have hpart : (array items).part? (.item place) = some items[place] :=
        List.getElem?_eq_getElem hplace
      have hitem := ih _ (List.getElem_mem hplace) (h.part hpart)
      simpa [part?, asArray?, hlive] using hitem
  | @object members hascending _ ih =>
    cases h.root with
    | noMembers hfound => rcases hfound with rfl | rfl <;> simp [isSubset]
    | object _ live =>
      refine isSubset_object.2 fun member hmem => ?_
      have hpart : (object members).part? (.member member.1) = some member.2 :=
        (Assoc.find?_eq_some_iff hascending).2 hmem
      exact ih member hmem (h.part hpart)

/-- **The comparison is one at every path.** -/
theorem isSubset_iff (hcanonical : desired.Canonical) :
    isSubset desired live = true ↔ MetThroughout desired (some live) :=
  ⟨fun h => metThroughout_of_isSubset h, fun h => isSubset_of_metThroughout hcanonical h⟩

/-! ## Additions and removals -/

/-- A member is added to an object of the live value, under a name that the desired value does not
have there. -/
inductive Adds (desired : Json) : (live grown : Json) → Prop where
  | intro {live : Json} (path : List Index) (name : String) (value : Json)
      {members : List (String × Json)} (hobject : live.lookup? path = some (.object members))
      (habsent : desired.lookup? (path ++ [.member name]) = none) :
      Adds desired live (live.changeAt (·.set name value) path)

/-- A member, `null` or not, is dropped from an object of the desired value. -/
inductive Drops : (desired trimmed : Json) → Prop where
  | intro (desired : Json) (path : List Index) (name : String) :
      Drops desired (desired.changeAt (·.unset name) path)

theorem MetThroughout.adds {grown : Json} (h : MetThroughout desired (some live))
    (hadds : Adds desired live grown) : MetThroughout desired (some grown) := by
  obtain ⟨path, name, value, hobject, habsent⟩ := hadds
  intro other wanted hwanted
  have hmet : wanted.MetBy (live.lookup? other) := h other wanted hwanted
  rw [Option.bind_some]
  by_cases hprefix : path <+: other
  · obtain ⟨rest, rfl⟩ := hprefix
    rw [lookup?_append, hobject, Option.bind_some] at hmet
    rw [lookup?_changeAt_append, hobject, Option.bind_some]
    cases rest with
    | nil => exact hmet.of_object _
    | cons index rest =>
      -- The desired value has nothing under the new name.
      have hindex : index ≠ .member name := by
        rintro rfl
        rw [List.append_cons, lookup?_append, habsent] at hwanted
        cases hwanted
      rw [lookup?_cons] at hmet ⊢
      rwa [part?_set_object, if_neg hindex]
  · exact hmet.of_rel (alike_lookup?_changeAt _ live hprefix)

theorem MetThroughout.drops {trimmed : Json} {found : Option Json} (h : MetThroughout desired found)
    (hdrops : Drops desired trimmed) : MetThroughout trimmed found := by
  obtain ⟨path, name⟩ := hdrops
  intro other wanted hwanted
  by_cases hprefix : path <+: other
  · obtain ⟨rest, rfl⟩ := hprefix
    rw [lookup?_changeAt_append] at hwanted
    obtain ⟨part, hpart, hrest⟩ := Option.bind_eq_some_iff.1 hwanted
    cases rest with
    | nil =>
      obtain rfl := Option.some.inj hrest
      exact (h (path ++ []) part (by simpa using hpart)).unset name
    | cons index rest =>
      obtain ⟨inner, hinner, hrest⟩ := Option.bind_eq_some_iff.1 hrest
      rw [part?_unset] at hinner
      split at hinner
      · cases hinner
      · refine h (path ++ index :: rest) wanted ?_
        rw [lookup?_append, hpart, Option.bind_some, lookup?_cons, hinner]
        exact hrest
  · have halike := alike_lookup?_changeAt (·.unset name) desired hprefix
    rw [hwanted] at halike
    cases hdesired : desired.lookup? other with
    | none => rw [hdesired] at halike; cases halike
    | some value =>
      rw [hdesired] at halike
      cases halike with
      | some halike => exact (h other value hdesired).of_alike halike

theorem Canonical.drops {trimmed : Json} (h : Canonical desired) (hdrops : Drops desired trimmed) :
    Canonical trimmed := by
  obtain ⟨path, name⟩ := hdrops
  exact h.changeAt (fun _ hvalue => hvalue.unset name) path

/-- **What the comparison finds out.**  No difference is found exactly if at every path of the
desired value the live one meets what is desired there.  There is none between a value and itself.
None arises when members are added to objects of the live value under names that the desired value
does not have there, or when members, `null` or not, are dropped from objects of the desired value.
Being canonical, the desired value binds no name of an object twice. -/
theorem compared_path_by_path (desired : {value : Json // value.Canonical}) (live : Json) :
    (isSubset desired.1 live = true ↔ ∀ path wanted, desired.1.lookup? path = some wanted →
      wanted.MetBy (live.lookup? path)) ∧
    isSubset desired.1 desired.1 = true ∧
    (isSubset desired.1 live = true →
      (∀ grown, Relation.ReflTransGen (Adds desired.1) live grown →
        isSubset desired.1 grown = true) ∧
      ∀ trimmed, Relation.ReflTransGen Drops desired.1 trimmed → isSubset trimmed live = true) := by
  obtain ⟨desired, hcanonical⟩ := desired
  refine ⟨isSubset_iff hcanonical, isSubset_of_fills hcanonical.fills_self, fun h => ⟨?_, ?_⟩⟩
  · intro grown hadds
    have hgrown : MetThroughout desired (some grown) := by
      induction hadds with
      | refl => exact (isSubset_iff hcanonical).1 h
      | tail _ hadds ih => exact ih.adds hadds
    exact (isSubset_iff hcanonical).2 hgrown
  · intro trimmed hdrops
    have htrimmed : trimmed.Canonical ∧ MetThroughout trimmed (some live) := by
      induction hdrops with
      | refl => exact ⟨hcanonical, (isSubset_iff hcanonical).1 h⟩
      | tail _ hdrops ih => exact ⟨ih.1.drops hdrops, ih.2.drops hdrops⟩
    exact (isSubset_iff htrimmed.1).2 htrimmed.2

/-- A value with members that ask for nothing. -/
def asked : Json := .ofMembers [("a", .int 1),
  ("b", .ofMembers [("c", .array [.int 1, .int 2]), ("gone", .null)]),
  ("empty", .object []), ("none", .array [])]

theorem canonical_asked : asked.Canonical := by simp [asked]

/-- A value with members that nobody asked for. -/
def served : Json := .ofMembers [("a", .int 1),
  ("b", .ofMembers [("c", .array [.int 1, .int 2]), ("extra", .bool true)]),
  ("status", .object [])]

/-- Within the member `b`, one value gets a member more and the other loses its `null`. -/
theorem asked_is_served : isSubset asked served = true ∧
    (∀ path wanted, asked.lookup? path = some wanted → wanted.MetBy (served.lookup? path)) ∧
    isSubset asked (served.changeAt (·.set "note" (.string "x")) [.member "b"]) = true ∧
    isSubset (asked.changeAt (·.unset "gone") [.member "b"]) served = true := by
  have hsubset : isSubset asked served = true := by decide +kernel
  obtain ⟨hpaths, -, hkept⟩ := compared_path_by_path ⟨asked, canonical_asked⟩ served
  obtain ⟨hadds, hdrops⟩ := hkept hsubset
  exact ⟨hsubset, hpaths.1 hsubset, hadds _ (.single (.intro _ _ _ rfl rfl)),
    hdrops _ (.single (.intro _ _ _))⟩

/-- The comparison is not transitive. -/
example : isSubset (.object [("a", .object [])]) (.object [("a", .null)]) = true ∧
    isSubset (.object [("a", .null)]) (.object [("a", .bool true)]) = true ∧
    isSubset (.object [("a", .object [])]) (.object [("a", .bool true)]) = false := by decide

end NetLab.Json
