import NetLab.Proofs.Drift.Update
import NetLab.Proofs.Reconcile.Order
import NetLab.Proofs.Reconcile.Rules

/-!
# What a pass knows to be its own

A pass never looks at an object again before it replaces or deletes it.  What protects the objects
of others is what it **knows** (`learnt`): the keys under which it has been shown an object with
its topology's owner label, or has written one.  `contract` says that a pass writes its own objects
only, and replaces and deletes under known keys only.

A workload pass and a connectivity pass keep that contract, whatever they are answered with
(`meets_reconcileWorkloads`, `meets_reconcilePolicies`): all that they take to be live is known
(`Knows`), and they act on nothing else.
-/

namespace NetLab.Ownership

open Cluster Kube Program

/-! ## What a pass knows -/

/-- The keys that a pass knows to be its own after a call. -/
def learnt (topology : String) (known : Key → Prop) : (call : Call) → call.Answer → Key → Prop
  | .list _ _, .ok items, key =>
    known key ∨ ∃ item ∈ items, item.ownedBy topology = true ∧ item.key = key
  | .get asked, .ok object, key => known key ∨ object.ownedBy topology = true ∧ key = asked
  | .create object, .ok _, key => known key ∨ key = object.key
  | .delete gone, _, key => known key ∧ key ≠ gone
  | .list _ _, .error _, key | .get _, .error _, key | .create _, .error _, key
  | .replace _, _, key => known key

/-- A pass writes objects of its own only, and replaces and deletes only what it knows. -/
def contract (topology : String) : Contract (Key → Prop) where
  allows known
    | .list _ _ | .get _ => True
    | .create object => object.ownedBy topology = true
    | .replace object => object.ownedBy topology = true ∧ known object.key
    | .delete key => known key
  answers known call answer known' := known' = learnt topology known call answer

/-- A pass knows whatever it takes to be live. -/
def Knows (pass : Pass) (known : Key → Prop) : Prop :=
  ∀ key object, pass.live.get? key = some object → known key

theorem knows_observe {pass : Pass} {known : Key → Prop} {key : Key} (object : Resource)
    (h : Knows pass known) (hkey : known key) : Knows (pass.observe key object) known := by
  intro other found hfound
  simp only [Pass.observe, SortedMap.get?_insert] at hfound
  split at hfound
  · rename_i heq
    rwa [Std.LawfulEqCmp.eq_of_compare heq]
  · exact h other found hfound

theorem Knows.mono {pass : Pass} {known known' : Key → Prop} (h : Knows pass known)
    (hle : ∀ key, known key → known' key) : Knows pass known' :=
  fun key object hget => hle key (h key object hget)

/-! ## The pass keeps to what it knows -/

section Apply

variable {scope : Scope} {type? : Option WorkloadType} {pass : Pass} {known : Key → Prop}

theorem meets_adopt {key : Key} (h : Knows pass known) :
    (Pass.adopt scope key pass).Meets (contract scope.topology) Knows known := by
  refine Pass.meets_adopt trivial ?_ ?_ ?_
  · rintro existing t rfl hown
    exact knows_observe existing (h.mono fun _ => Or.inl) (Or.inr ⟨hown, rfl⟩)
  · rintro existing t rfl -
    exact h.mono fun _ => Or.inl
  · rintro e t rfl
    exact h

theorem meets_applyObject {planned : PlannedObject}
    (hown : planned.object.ownedBy scope.topology = true) (h : Knows pass known) :
    (Pass.applyObject scope type? planned pass).Meets (contract scope.topology) Knows known := by
  refine Pass.meets_applyObject (fun _ _ _ => h) (fun _ _ => ?_) (fun live _ hlive _ => ?_)
    (fun _ _ _ _ => h)
  · refine Pass.meets_create hown ?_ ?_ ?_
    · rintro created t rfl
      exact knows_observe created (h.mono fun _ => Or.inl) (Or.inr rfl)
    · rintro m t rfl
      exact meets_adopt h
    · rintro e t rfl
      exact h
  · have hknown : known planned.object.key := h _ _ hlive
    refine Pass.meets_replace ⟨?_, ?_⟩ ?_ ?_ ?_
    · rw [Resource.update_ownedBy]
      exact hown
    · rw [Resource.update_key]
      exact hknown
    · rintro replaced t rfl
      exact knows_observe replaced h hknown
    · rintro m t rfl
      exact h
    · rintro e t rfl
      exact h

theorem meets_applyGroup {owner : String} {objects : List PlannedObject}
    (hown : ∀ planned ∈ objects, planned.object.ownedBy scope.topology = true)
    (h : Knows pass known) :
    (Pass.applyGroup scope type? owner objects pass).Meets (contract scope.topology) Knows
      known := by
  refine Pass.meets_applyGroup (fun _ _ _ => h) (fun _ => h) (fun order _ horder => ?_)
  refine meets_forEach_mem Knows (fun planned hmem pass known hknows => ?_) h
  have hplanned := (PlannedObject.perm_of_applyOrder? horder).mem_iff.1 hmem
  exact meets_applyObject (hown planned hplanned) hknows

/-- What is still to be deleted is known, and a key that was deleted does not come again. -/
theorem meets_prune (h : Knows pass known) :
    (Pass.prune scope pass).Meets (contract scope.topology) (fun _ _ => True) known := by
  refine (meets_forEach (fun rest _ known =>
    (rest.map Prod.fst).Nodup ∧ ∀ entry ∈ rest, known entry.1) ?_ _ _ _
    ⟨Pass.nodup_unwanted, fun entry hmem => h _ _ (Pass.mem_unwanted.1 hmem).1⟩).mono
    fun _ _ _ => trivial
  intro entry rest pass known ⟨hnodup, hknown⟩
  obtain ⟨hfresh, hrest⟩ := List.nodup_cons.1 hnodup
  have hleft : (rest.map Prod.fst).Nodup ∧ ∀ other ∈ rest, known other.1 ∧ other.1 ≠ entry.1 := by
    refine ⟨hrest, fun other hmem => ⟨hknown other (List.mem_cons_of_mem _ hmem), ?_⟩⟩
    intro heq
    exact hfresh (heq ▸ List.mem_map_of_mem hmem)
  refine Pass.meets_delete (hknown entry List.mem_cons_self) ?_ ?_ ?_
  · rintro t rfl
    exact hleft
  · rintro m t rfl
    exact hleft
  · rintro e t rfl
    exact hleft

end Apply

/-- **Between snapshot and end**, a pass that knows what is live keeps to what it knows. -/
theorem meets_begin {α : Type} {scope : Scope} {next : Pass → Program α}
    (h : ∀ live known, Knows (Pass.start live) known →
      (next (Pass.start live)).Meets (contract scope.topology) (fun _ _ => True) known) :
    (Pass.begin scope next).Meets (contract scope.topology) (fun _ _ => True) fun _ => False := by
  refine Pass.meets_begin (fun _ live known => Knows (Pass.start live) known) ?_ ?_ ?_ ?_ h ?_
  · exact fun _ _ _ _ _ => trivial
  · rintro kind rest live known items t hknows rfl key object hget
    rcases Pass.get?_addOwned scope.topology live items key with
      ⟨item, hmem, hown, hkey, -⟩ | ⟨-, hlive⟩
    · exact Or.inr ⟨item, hmem, hown, hkey⟩
    · exact Or.inl (hknows key object (hlive.symm.trans hget))
  · rintro rest live known m t hknows rfl
    exact hknows
  · exact fun _ _ _ _ _ _ _ _ => trivial
  · intro key object hget
    cases hget

/-- **A workload pass keeps to what it knows**, if the objects it is given are its topology's. -/
theorem meets_reconcileWorkloads {topology namespaceName : String}
    {plans : SortedMap String NodePlan}
    (hown : ∀ entry ∈ plans.entries, ∀ planned ∈ entry.2.objects,
      planned.object.ownedBy topology = true) :
    (reconcileWorkloads topology namespaceName plans).Meets (contract topology)
      (fun _ _ => True) fun _ => False := by
  unfold reconcileWorkloads
  refine @meets_begin _ (Scope.workloads topology namespaceName) _ fun live known hknows => ?_
  refine Pass.meets_workloads ((meets_forEach_mem Knows ?_ hknows).mono fun _ _ => meets_prune)
  intro entry hmem pass known hknows
  exact meets_applyGroup (hown entry hmem) hknows

/-- The same for a connectivity pass. -/
theorem meets_reconcilePolicies {topology namespaceName : String} {policies : List PlannedObject}
    (hown : ∀ planned ∈ policies, planned.object.ownedBy topology = true) :
    (reconcilePolicies topology namespaceName policies).Meets (contract topology)
      (fun _ _ => True) fun _ => False := by
  unfold reconcilePolicies
  refine @meets_begin _ (Scope.connectivity topology namespaceName) _ fun live known hknows => ?_
  exact Pass.meets_policies ((meets_applyGroup hown hknows).mono fun _ _ hend => meets_prune hend)

end NetLab.Ownership
