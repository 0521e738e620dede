import NetLab.Diff.Subset
import NetLab.Proofs.Json.Members

/-!
# Subset comparison, member by member

`isSubset` walks over lists of items and members; here it is put in terms of the items and members
themselves.  `Fills` is what a server that only adds may make of a value, and never takes it out of
the comparison (`isSubset_of_fills`).
-/

namespace NetLab.Json

theorem areSubsets_iff {items live : List Json} (hlength : items.length = live.length) :
    areSubsets items live = true ↔ ∀ pair ∈ items.zip live, isSubset pair.1 pair.2 = true := by
  induction items generalizing live with
  | nil => simp [areSubsets]
  | cons item rest ih =>
    cases live with
    | nil => simp at hlength
    | cons first others =>
      simp [areSubsets, ih (Nat.succ.inj hlength)]

theorem areSubset_iff {members live : List (String × Json)} :
    areSubset members live = true ↔
      ∀ member ∈ members, isSubset member.2 ((object live).get member.1) = true := by
  induction members with
  | nil => simp [areSubset]
  | cons member rest ih => simp [areSubset, ih, get_object]

@[simp]
theorem isSubset_null (live : Json) : isSubset .null live = true := by simp [isSubset]

theorem isSubset_object {members live : List (String × Json)} :
    isSubset (.object members) (.object live) = true ↔
      ∀ member ∈ members, isSubset member.2 ((object live).get member.1) = true := by
  rw [← areSubset_iff]
  cases members <;> simp [isSubset, areSubset]

theorem isSubset_array {items live : List Json} :
    isSubset (.array items) (.array live) = true ↔
      items.length = live.length ∧ ∀ pair ∈ items.zip live, isSubset pair.1 pair.2 = true := by
  simp only [isSubset, Bool.and_eq_true, decide_eq_true_eq]
  exact and_congr_right areSubsets_iff

/-- Arrays are compared place by place. -/
theorem isSubset_array_iff_getElem {items live : List Json} :
    isSubset (.array items) (.array live) = true ↔
      items.length = live.length ∧ ∀ (place : Nat) (h : place < items.length)
        (h' : place < live.length), isSubset items[place] live[place] = true := by
  rw [isSubset_array]
  refine and_congr_right fun hlength => ⟨fun hitems place h h' => ?_, fun hitems pair hmem => ?_⟩
  · refine hitems (items[place], live[place]) (List.mem_iff_getElem.2 ⟨place, ?_, ?_⟩)
    · rw [List.length_zip]
      exact Nat.lt_min.2 ⟨h, h'⟩
    · exact List.getElem_zip
  · obtain ⟨place, hplace, rfl⟩ := List.mem_iff_getElem.1 hmem
    obtain ⟨h, h'⟩ := Nat.lt_min.1 (List.length_zip ▸ hplace)
    simpa only [List.getElem_zip] using hitems place h h'

/-- **What a server that only adds may make of a value**: it keeps texts, numbers, truth values
and the lengths of arrays, and may bind members that are missing or `null`. -/
inductive Fills : (sent stored : Json) → Prop where
  | null (stored : Json) : Fills .null stored
  | bool (value : Bool) : Fills (.bool value) (.bool value)
  | number (value : Number) : Fills (.number value) (.number value)
  | string (value : String) : Fills (.string value) (.string value)
  | array {items stored : List Json} (hlength : items.length = stored.length)
      (hitems : ∀ pair ∈ items.zip stored, Fills pair.1 pair.2) :
      Fills (.array items) (.array stored)
  | object {members stored : List (String × Json)}
      (hmembers : ∀ member ∈ members, Fills member.2 ((object stored).get member.1)) :
      Fills (.object members) (.object stored)

theorem isSubset_of_fills {sent stored : Json} (h : Fills sent stored) :
    isSubset sent stored = true := by
  induction h with
  | null stored => exact isSubset_null stored
  | bool value | number value | string value => simp [isSubset]
  | array hlength _ ih => exact isSubset_array.2 ⟨hlength, ih⟩
  | object _ ih => exact isSubset_object.2 ih

namespace Fills

/-- What is read from a filled value fills what is read from the value. -/
theorem get {sent stored : Json} (h : Fills sent stored) (name : String) :
    Fills (sent.get name) (stored.get name) := by
  cases h with
  | object hmembers =>
    rcases get_eq_null_or_mem _ name with hnull | hmem
    · rw [hnull]
      exact null _
    · exact hmembers _ hmem
  | null _ | bool _ | number _ | string _ | array _ _ => exact null _

theorem path {sent stored : Json} (h : Fills sent stored) (names : List String) :
    Fills (sent.path names) (stored.path names) := by
  induction names generalizing sent stored with
  | nil => exact h
  | cons name rest ih => exact ih (h.get name)

/-- A text that was sent is there still. -/
theorem asString?_eq {sent stored : Json} (h : Fills sent stored) (hsent : sent ≠ .null) :
    stored.asString? = sent.asString? := by
  cases h with
  | null => exact absurd rfl hsent
  | bool _ | number _ | string _ | array _ _ | object _ => rfl

end Fills

end NetLab.Json
