import NetLab.Proofs.Json.Canonical

/-!
# When the subset comparison is exact

`isSubset` lets a live value hold more than the desired one.  Of two values that were built by one
function it mostly cannot: arrays have to have the same length, and both objects have the members
that the function gives them.  Then the comparison is `Exact`: it finds no difference only if there
is none.
-/

namespace NetLab.Json

/-- What is set in a member of the desired value is the same in that member of the live value. -/
theorem isSubset_get {desired live : Json} (h : isSubset desired live = true) (name : String) :
    isSubset (desired.get name) (live.get name) = true := by
  cases desired with
  | object members =>
    rcases get_eq_null_or_mem members name with hnull | hmem
    · rw [hnull]
      exact isSubset_null _
    · cases live with
      | object live => exact isSubset_object.1 h _ hmem
      | null | bool _ | number _ | string _ | array _ =>
        cases members with
        | nil => cases hmem
        | cons _ _ => simp [isSubset] at h
  | null | bool _ | number _ | string _ | array _ => exact isSubset_null _

theorem isSubset_path {desired live : Json} (h : isSubset desired live = true)
    (names : List String) : isSubset (desired.path names) (live.path names) = true := by
  induction names generalizing desired live with
  | nil => exact h
  | cons name rest ih => exact ih (isSubset_get h name)

/-- Only an object has members. -/
theorem exists_object_of_get {value member : Json} {name : String} (h : value.get name = member)
    (hmember : member ≠ .null) : ∃ members, value = .object members := by
  cases value with
  | object members => exact ⟨members, rfl⟩
  | null | bool _ | number _ | string _ | array _ => exact absurd h.symm hmember

theorem isSubset_ofMembers {members live : List (String × Json)}
    (h : ∀ member ∈ members, isSubset member.2 ((object live).get member.1) = true) :
    isSubset (ofMembers members) (object live) = true :=
  isSubset_object.2 fun member hmem => h member (Assoc.mem_of_mem_ofList hmem)

theorem isSubset_ofOptional {members : List (String × Option Json)} {live : List (String × Json)}
    (h : ∀ member ∈ members, ∀ value, member.2 = some value →
      isSubset value ((object live).get member.1) = true) :
    isSubset (ofOptional members) (object live) = true := by
  refine isSubset_ofMembers fun member hmem => ?_
  obtain ⟨⟨name, value?⟩, hentry, hvalue⟩ := List.mem_filterMap.1 hmem
  simp only [Option.map_eq_some_iff] at hvalue
  obtain ⟨value, hvalue, rfl⟩ := hvalue
  exact h _ hentry value hvalue

/-- **The comparison leaves no difference** between the two values unseen. -/
def Exact (desired live : Json) : Prop := isSubset desired live = true → desired = live

namespace Exact

@[simp] theorem refl (value : Json) : Exact value value := fun _ => rfl

theorem string (text : String) (live : Json) : Exact (.string text) live := by
  intro h
  exact (by simpa [isSubset] using h : live = .string text).symm

theorem array {items live : List Json} (h : ∀ pair ∈ items.zip live, Exact pair.1 pair.2) :
    Exact (.array items) (.array live) := by
  intro hsubset
  obtain ⟨hlength, hitems⟩ := isSubset_array.1 hsubset
  refine congrArg Json.array (List.ext_getElem hlength fun i hi hi' => ?_)
  have hzip : i < (items.zip live).length := by
    rw [List.length_zip]
    omega
  have hmem : (items[i], live[i]) ∈ items.zip live :=
    List.mem_iff_getElem.2 ⟨i, hzip, List.getElem_zip⟩
  exact h _ hmem (hitems _ hmem)

theorem array_of_mem {items live : List Json}
    (h : ∀ item ∈ items, ∀ other ∈ live, Exact item other) : Exact (.array items) (.array live) :=
  array fun pair hmem => h pair.1 (List.of_mem_zip hmem).1 pair.2 (List.of_mem_zip hmem).2

theorem array_map {α : Type} {f : α → Json} (h : ∀ a b, Exact (f a) (f b)) (xs ys : List α) :
    Exact (.array (xs.map f)) (.array (ys.map f)) := by
  refine .array_of_mem fun item hitem other hother => ?_
  obtain ⟨a, -, rfl⟩ := List.mem_map.1 hitem
  obtain ⟨b, -, rfl⟩ := List.mem_map.1 hother
  exact h a b

/-- Two objects with members of the same names. -/
theorem ofMembers (members : List (String × Json × Json))
    (h : ∀ member ∈ members, Exact member.2.1 member.2.2) :
    Exact (.ofMembers (members.map fun member => (member.1, member.2.1)))
      (.ofMembers (members.map fun member => (member.1, member.2.2))) := by
  intro hsubset
  refine congrArg Json.object (Assoc.eq_of_find?_eq (Assoc.ascending_ofList _)
    (Assoc.ascending_ofList _) fun name => ?_)
  have hname := isSubset_get hsubset name
  simp only [Json.ofMembers, get_object, Assoc.find?_ofList_map] at hname ⊢
  cases hfind : Assoc.find? name (Assoc.ofList members) with
  | none => rfl
  | some values =>
    rw [hfind] at hname
    exact congrArg some (h _ (Assoc.mem_of_mem_ofList (Assoc.mem_of_find? hfind)) hname)

/-- Two objects with a text under the same name. -/
theorem ofText (name text text' : String) :
    Exact (.ofMembers [(name, .string text)]) (.ofMembers [(name, .string text')]) :=
  ofMembers [(name, .string text, .string text')] (by simp [string])

end Exact

/-- The object of a map that was built from a list. -/
theorem ofStringMap_ofList (entries : List (String × String)) :
    ofStringMap (.ofList entries) =
      ofMembers (entries.map fun entry => (entry.1, .string entry.2)) := by
  obtain ⟨hascending, -⟩ := Canonical.object_iff.1 (Canonical.ofStringMap (.ofList entries))
  refine congrArg object (Assoc.eq_of_find?_eq hascending (Assoc.ascending_ofList _) fun name => ?_)
  rw [Assoc.find?_ofList_map]
  exact Assoc.find?_map name (fun _ text => Json.string text) _

end NetLab.Json
