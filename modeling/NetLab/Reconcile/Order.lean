import NetLab.Render.Plan

/-!
# The order of applying

`applyOrder?` puts planned objects after those they depend on: of the objects whose dependencies
have all been placed it always takes the first.  Dependencies on objects outside the list do not
count here.  There is no order if the dependencies form a cycle.
-/

namespace NetLab

open Kube

variable {α : Type}

/-- The first item that passes the test, and the others. -/
def takeFirst? (test : α → Bool) : List α → Option (α × List α)
  | [] => none
  | item :: rest =>
    if test item then some (item, rest)
    else (takeFirst? test rest).map fun (found, others) => (found, item :: others)

theorem length_of_takeFirst? {test : α → Bool} {items others : List α} {found : α}
    (h : takeFirst? test items = some (found, others)) : others.length < items.length := by
  induction items generalizing others with
  | nil => simp [takeFirst?] at h
  | cons item rest ih =>
    simp only [takeFirst?] at h
    split at h
    · obtain ⟨rfl, rfl⟩ := by simpa using h
      simp
    · obtain ⟨⟨found', others'⟩, hrest, hpair⟩ := Option.map_eq_some_iff.1 h
      obtain ⟨rfl, rfl⟩ := by simpa using hpair
      simpa using ih hrest

namespace PlannedObject

/-- Every dependency inside the group has been placed. -/
def isPlaceable (group placed : List Key) (planned : PlannedObject) : Bool :=
  planned.dependencies.all fun key => !group.contains key || placed.contains key

/-- The remaining objects of a group in the order of applying, after those that were placed. -/
def orderFrom? (group placed : List Key) (remaining : List PlannedObject) :
    Option (List PlannedObject) :=
  if remaining.isEmpty then some []
  else
    match _h : takeFirst? (isPlaceable group placed) remaining with
    | none => none
    | some (next, others) =>
      (orderFrom? group (next.key :: placed) others).map (next :: ·)
termination_by remaining.length
decreasing_by exact length_of_takeFirst? ‹_›

/-- The objects in the order of applying; none if their dependencies form a cycle. -/
def applyOrder? (objects : List PlannedObject) : Option (List PlannedObject) :=
  orderFrom? (objects.map key) [] objects

end PlannedObject

end NetLab
