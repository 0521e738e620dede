import NetLab.Proofs.Reconcile.Groups

/-!
# Which errors are about no object

An error that a pass reports is about one object, or it is the refusal of a group, none of whose
objects is applied then (`Reconciles.refusal_of_error`).  So a node is never reported as refused if
its objects are of the kinds of the pass and have an order (`reconcileWorkloads_not_refused`),
whatever else is planned, and whatever the calls of the pass are answered with.
-/

namespace NetLab

open Cluster Kube Program

namespace Pass

variable {scope : Scope} {groups : List Group} {pass : Pass} {done : History}

/-- Every error that is about no object is the refusal of one of the groups. -/
def OnlyRefusals (scope : Scope) (groups : List Group) (pass : Pass) : Prop :=
  ∀ error ∈ pass.report.errors, error.key? = none →
    ∃ group ∈ groups, group.refusal? scope = some error

theorem OnlyRefusals.of_errors {pass' : Pass} (h : OnlyRefusals scope groups pass)
    (herrors : pass'.report.errors = pass.report.errors) : OnlyRefusals scope groups pass' := by
  intro error hmem
  rw [herrors] at hmem
  exact h error hmem

/-- An error about an object adds none that is about none. -/
theorem OnlyRefusals.fail (h : OnlyRefusals scope groups pass) {error : ResourceError} {key : Key}
    (hkey : error.key? = some key) : OnlyRefusals scope groups (pass.fail error) := by
  intro other hmem hnone
  rw [fail_errors] at hmem
  rcases List.mem_append.1 hmem with hmem | hmem
  · exact h other hmem hnone
  · obtain rfl := List.mem_singleton.1 hmem
    cases hkey.symm.trans hnone

/-- Applying one object refuses no group. -/
theorem meets_applyObject_onlyRefusals {type? : Option WorkloadType} {planned : PlannedObject}
    (h : OnlyRefusals scope groups pass) :
    (applyObject scope type? planned pass).Meets (recording fun _ _ => True)
      (fun pass _ => OnlyRefusals scope groups pass) done := by
  have hdone (action : Action) (key : Key) (object : Resource) : OnlyRefusals scope groups
      (((pass.record action (change scope type? key)).observe key object).markReady key) :=
    h.of_errors (record_errors ..)
  refine meets_applyObject (fun key _ _ => h.fail rfl) (fun _ _ => ?_) (fun live _ _ _ => ?_)
    (fun live _ _ _ => h)
  · refine meets_create trivial (fun created _ _ => hdone _ _ _) (fun _ done _ => ?_)
      (fun e _ _ => h.fail rfl)
    exact meets_adopt trivial (fun existing _ _ _ => h) (fun existing _ _ _ => h.fail rfl)
      (fun e _ _ => h.fail rfl)
  · exact meets_replace trivial (fun replaced _ _ => hdone _ _ _) (fun _ _ _ => h.fail rfl)
      (fun e _ _ => h.fail rfl)

/-- Applying a group adds its own refusal, if it is refused. -/
theorem meets_applyGroup_onlyRefusals {group : Group} (hmem : group ∈ groups)
    (h : OnlyRefusals scope groups pass) :
    (applyGroup scope group.type? group.owner group.objects pass).Meets (recording fun _ _ => True)
      (fun pass _ => OnlyRefusals scope groups pass) done := by
  cases hrefusal : group.refusal? scope with
  | some refusal =>
    rw [applyGroup_of_refusal pass hrefusal]
    intro error herror hnone
    rcases List.mem_append.1 herror with herror | herror
    · exact h error herror hnone
    · obtain rfl := List.mem_singleton.1 herror
      exact ⟨group, hmem, hrefusal⟩
  | none =>
    obtain ⟨order, -, happly⟩ := exists_order_of_refusal_none hrefusal
    rw [happly]
    exact meets_forEach_mem (fun pass _ => OnlyRefusals scope groups pass)
      (fun planned _ pass done h => meets_applyObject_onlyRefusals h) h

/-- Pruning refuses no group. -/
theorem meets_prune_onlyRefusals (h : OnlyRefusals scope groups pass) :
    (prune scope pass).Meets (recording fun _ _ => True)
      (fun pass _ => OnlyRefusals scope groups pass) done := by
  refine meets_forEach_mem (fun pass _ => OnlyRefusals scope groups pass)
    (fun entry _ pass done h => ?_) h
  exact meets_delete trivial (fun _ _ => h.of_errors (record_errors ..))
    (fun _ _ _ => h.of_errors (record_errors ..)) (fun e _ _ => h.fail rfl)

theorem meets_overGroups_onlyRefusals :
    (overGroups scope groups).Meets (recording fun _ _ => True)
      (fun result _ => ∀ pass, result = .ok pass → OnlyRefusals scope groups pass) [] := by
  refine meets_begin_recording (fun _ _ _ => trivial) (fun _ _ _ _ _ => nofun) fun lists _ => ?_
  have hstart : OnlyRefusals scope groups (start (snapshotOf scope.topology lists)) :=
    fun error hmem => (List.not_mem_nil hmem).elim
  have happlied : (applyGroups scope groups (start (snapshotOf scope.topology lists))).Meets
      (recording fun _ _ => True) (fun pass _ => OnlyRefusals scope groups pass) lists :=
    meets_forEach_mem (fun pass _ => OnlyRefusals scope groups pass)
      (fun group hmem pass done h => meets_applyGroup_onlyRefusals hmem h) hstart
  refine meets_bind.2 (happlied.mono fun pass done h => ?_)
  refine (meets_prune_onlyRefusals h).mono fun pass _ h pass' heq => ?_
  obtain rfl := Except.ok.inj heq
  exact h

end Pass

/-- **Whatever a pass reports about no object in particular is the refusal of a group.** -/
theorem Reconciles.refusal_of_error {scope : Scope} {groups : List Group}
    {program : Program (Except PassError PassReport)} (h : Reconciles scope groups program)
    {done : History} {report : PassReport} (hyields : program.Yields done (.ok report))
    {error : ResourceError} (hmem : error ∈ report.errors) (hnone : error.key? = none) :
    ∃ group ∈ groups, group.refusal? scope = some error := by
  obtain ⟨pass, nodes, hpass, rfl⟩ := h.exists_pass hyields
  exact Pass.meets_overGroups_onlyRefusals.post_of_yields hpass pass rfl error hmem hnone

/-- A refusal names the owner of the group. -/
theorem Group.eq_of_refusal {scope : Scope} {group : Group} {error : ResourceError}
    (h : group.refusal? scope = some error) :
    error = .dependencyCycle group.owner ∨ ∃ kind, error = .unsupportedKind group.owner kind := by
  unfold refusal? at h
  split at h
  · exact Or.inr ⟨_, (Option.some.inj h).symm⟩
  · split at h
    · exact Or.inl (Option.some.inj h).symm
    · cases h

/-- **A node that can be carried out is never reported as refused**, whatever is planned for the
others. -/
theorem reconcileWorkloads_not_refused {topology namespaceName node : String} {plan : NodePlan}
    {plans : SortedMap String NodePlan} {order : List PlannedObject}
    (hmem : (node, plan) ∈ plans.entries)
    (hkinds : ∀ planned ∈ plan.objects, planned.object.kind ∈ Kind.workloads)
    (horder : PlannedObject.applyOrder? plan.objects = some order) {done : History}
    {report : PassReport}
    (hyields : (reconcileWorkloads topology namespaceName plans).Yields done (.ok report)) :
    ResourceError.dependencyCycle node ∉ report.errors ∧
      ∀ kind, ResourceError.unsupportedKind node kind ∉ report.errors := by
  have hrefusal (error : ResourceError) (herror : error ∈ report.errors)
      (hnone : error.key? = none) : error ≠ .dependencyCycle node ∧
        ∀ kind, error ≠ .unsupportedKind node kind := by
    obtain ⟨group, hgroup, hrefused⟩ := Reconciles.refusal_of_error
      (.workloads topology namespaceName plans) hyields herror hnone
    obtain ⟨⟨other, plan'⟩, hmem', rfl⟩ := List.mem_map.1 hgroup
    have hother : other ≠ node := by
      rintro rfl
      -- The only group of that owner is the one that is not refused.
      obtain rfl : plan' = plan := Option.some.inj ((SortedMap.get?_eq_some_iff.2 hmem').symm.trans
        (SortedMap.get?_eq_some_iff.2 hmem))
      cases hrefused.symm.trans (Group.refusal?_eq_none hkinds horder)
    rcases Group.eq_of_refusal hrefused with rfl | ⟨kind, rfl⟩
    · exact ⟨fun heq => hother (ResourceError.dependencyCycle.inj heq), nofun⟩
    · exact ⟨nofun, fun kind heq => hother (ResourceError.unsupportedKind.inj heq).1⟩
  exact ⟨fun herror => (hrefusal _ herror rfl).1 rfl,
    fun kind herror => (hrefusal _ herror rfl).2 kind rfl⟩

end NetLab
