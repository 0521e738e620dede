import NetLab.Proofs.Cluster.Runs
import NetLab.Proofs.Reconcile.Order
import NetLab.Proofs.Reconcile.Rules
import NetLab.Proofs.Render.Objects

/-!
# The phases of a pass

A pass first lists, then applies, then deletes.  Whatever it sends to be written is a planned
object, or a planned object for a live one, and it sends it before it deletes anything
(`Phases.sends_before_delete`).
-/

namespace NetLab

open Cluster Kube Program

/-- The call deletes an object. -/
def Cluster.Call.deletes : Call → Bool
  | .delete _ => true
  | .list _ _ | .get _ | .create _ | .replace _ => false

/-- The object is planned, or one that replaces a live one by a planned object. -/
def PlannedObject.Writes (planned : List PlannedObject) (sent : Resource) : Prop :=
  ∃ p ∈ planned, sent = p.object ∨ ∃ live, sent = p.object.update live

/-- What is written has the key and the labels of a planned object. -/
theorem PlannedObject.Writes.exists_planned {planned : List PlannedObject} {sent : Resource}
    (h : Writes planned sent) : ∃ p ∈ planned, sent.key = p.key ∧
      ∀ name, sent.label? name = p.object.label? name := by
  obtain ⟨p, hmem, rfl | ⟨live, rfl⟩⟩ := h
  · exact ⟨p, hmem, rfl, fun _ => rfl⟩
  · exact ⟨p, hmem, Resource.update_key _ _, fun name => by
      simp [Resource.label?, Resource.update_metadata, Meta.label?]⟩

namespace Phases

/-- What a pass may do once it has deleted something, or has not. -/
def contract (planned : List PlannedObject) : Contract Bool where
  allows deleting
    | .list _ _ | .get _ => deleting = false
    | .create object | .replace object =>
      deleting = false ∧ PlannedObject.Writes planned object
    | .delete _ => True
  answers deleting call _ deleting' := deleting' = (deleting || call.deletes)

section

variable {planned objects : List PlannedObject} {scope : Scope} {type? : Option WorkloadType}
  {pass : Pass} {deleting : Bool}

theorem meets_applyObject {p : PlannedObject} (hmem : p ∈ planned) :
    (Pass.applyObject scope type? p pass).Meets (contract planned)
      (fun _ deleting => deleting = false) false := by
  refine Pass.meets_applyObject (fun _ _ _ => rfl) (fun _ _ => ?_) (fun live _ _ _ => ?_)
    fun _ _ _ _ => rfl
  · refine Pass.meets_create ⟨rfl, p, hmem, Or.inl rfl⟩ ?_ ?_ ?_
    · rintro stored deleting rfl
      rfl
    · rintro message deleting rfl
      refine Pass.meets_adopt rfl ?_ ?_ ?_
      · rintro existing deleting rfl -
        rfl
      · rintro existing deleting rfl -
        rfl
      · rintro e deleting rfl
        rfl
    · rintro e deleting rfl
      rfl
  · refine Pass.meets_replace ⟨rfl, p, hmem, Or.inr ⟨live, rfl⟩⟩ ?_ ?_ ?_
    · rintro stored deleting rfl
      rfl
    · rintro message deleting rfl
      rfl
    · rintro e deleting rfl
      rfl

theorem meets_applyGroup {owner : String} (hmem : ∀ p ∈ objects, p ∈ planned) :
    (Pass.applyGroup scope type? owner objects pass).Meets (contract planned)
      (fun _ deleting => deleting = false) false := by
  refine Pass.meets_applyGroup (fun _ _ _ => rfl) (fun _ => rfl) fun order _ horder => ?_
  refine meets_forEach_mem (fun _ deleting => deleting = false) ?_ rfl
  rintro p hp pass _ rfl
  exact meets_applyObject (hmem p ((PlannedObject.perm_of_applyOrder? horder).mem_iff.1 hp))

theorem meets_prune :
    (Pass.prune scope pass).Meets (contract planned) (fun _ _ => True) deleting := by
  refine meets_forEach_mem (fun _ _ => True) (fun entry _ pass deleting _ => ?_) trivial
  exact Pass.meets_delete trivial (fun _ _ => trivial) (fun _ _ _ => trivial)
    fun _ _ _ => trivial

/-- A pass from its snapshot on, if it goes on with phases. -/
theorem meets_begin {α : Type} {next : Pass → Program α}
    (h : ∀ pass, (next pass).Meets (contract planned) (fun _ _ => True) false) :
    (Pass.begin scope next).Meets (contract planned) (fun _ _ => True) false := by
  refine Pass.meets_begin (fun _ _ deleting => deleting = false) ?_ ?_ ?_ ?_ ?_ rfl
  · exact fun _ _ _ _ hlisting => hlisting
  · rintro kind rest live _ items deleting rfl rfl
    rfl
  · rintro rest live _ message deleting rfl rfl
    rfl
  · exact fun _ _ _ _ _ _ _ _ => trivial
  · rintro live _ rfl
    exact h _

end

theorem meets_reconcileWorkloads {topology namespaceName : String}
    {plans : SortedMap String NodePlan} :
    (reconcileWorkloads topology namespaceName plans).Meets
      (contract (NodePlan.allObjects plans)) (fun _ _ => True) false := by
  unfold reconcileWorkloads
  refine meets_begin fun pass => Pass.meets_workloads ?_
  refine (meets_forEach_mem (fun _ deleting => deleting = false) ?_ rfl).mono
    fun _ _ _ => meets_prune
  rintro entry hentry pass _ rfl
  exact meets_applyGroup fun p hp => List.mem_flatMap.2 ⟨entry, hentry, hp⟩

/-! ## What is seen of a pass -/

variable {σ α : Type} {answers : Answering σ} {p q : Program α} {planned : List PlannedObject}
  {s t : σ}

/-- **What a pass deletes comes last**: it sends planned objects, and has deleted nothing before. -/
theorem sends_before_delete
    (hmeets : p.Meets (contract planned) (fun _ _ => True) false) {before later : List (Event σ)}
    {event : Event σ} (hreach : p.Reaches answers s (before ++ event :: later) q t)
    {object : Resource} (hsends : event.call.Sends object) :
    PlannedObject.Writes planned object ∧ ∀ earlier ∈ before, earlier.call.deletes = false := by
  obtain ⟨_, rfl, hallowed⟩ := hmeets.allows_observed
    (fun events deleting => deleting = events.any fun event => event.call.deletes)
    (fun before event _ _ hbefore _ => ⟨_, rfl, by simp [hbefore]⟩) rfl hreach
  obtain ⟨hnone, hwrites⟩ : (before.any fun event => event.call.deletes) = false ∧
      PlannedObject.Writes planned object := by
    cases hcall : event.call with
    | list _ _ | get _ | delete _ =>
      rw [hcall] at hsends
      exact hsends.elim
    | create sent | replace sent =>
      rw [hcall] at hsends hallowed
      obtain rfl : sent = object := hsends
      exact hallowed
  exact ⟨hwrites, fun earlier hmem => by simpa using List.any_eq_false.1 hnone earlier hmem⟩

end Phases

end NetLab
