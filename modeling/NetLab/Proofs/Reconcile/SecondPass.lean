import NetLab.Proofs.Reconcile.Progress

/-!
# What a second pass does

A pass after a clean one writes nothing, if no two of the planned objects have one key
(`Reconciles.second_pass`).  This holds of every pass over groups, the connectivity pass included.

If two planned objects do have one key, and no object satisfies both, each of them undoes the other:
no pass is quiet then, however many came before it (`Reconciles.not_quiet`).
-/

namespace NetLab

open Cluster Kube Program

namespace SecondPass

variable {scope : Scope} {groups : List Group} {done : List PlannedObject} {pass : Pass}
  {planned : PlannedObject}

/-! ## Objects of one key -/

section Quiet

variable {live : SortedMap Key Resource} {exchanges : History}

/-- **A pass that has been quiet** so far, without an error and without a write, has found every
object of `done` as it should be. -/
def Quiet (live : SortedMap Key Resource) (done : List PlannedObject) (pass : Pass)
    (exchanges : History) : Prop :=
  pass.report.errors = [] → (∀ exchange ∈ exchanges, exchange.1.isWrite = false) →
    pass.live = live ∧ ∀ planned ∈ done, ∃ object,
      live.get? planned.key = some object ∧ planned.object.needsUpdate object = false

/-- An error is not quiet, -/
theorem Quiet.fail (error : ResourceError) : Quiet live done (pass.fail error) exchanges :=
  fun herrors => by simp at herrors

/-- and neither is a write. -/
theorem Quiet.of_mem {exchange : Exchange} (hmem : exchange ∈ exchanges)
    (hwrite : exchange.1.isWrite = true) : Quiet live done pass exchanges :=
  fun _ hquiet => by cases (hquiet exchange hmem).symm.trans hwrite

theorem meets_applyObject_quiet {type? : Option WorkloadType} (h : Quiet live done pass exchanges) :
    (Pass.applyObject scope type? planned pass).Meets (recording fun _ _ => True)
      (Quiet live (planned :: done)) exchanges := by
  refine Pass.meets_applyObject (fun _ _ _ => .fail _) (fun _ _ => ?_) (fun other _ _ _ => ?_)
    (fun other _ hother hdrift => ?_)
  · have hlast {answer : (Call.create planned.object).Answer} {more : History} :
        (⟨_, answer⟩ : Exchange) ∈ exchanges ++ [⟨.create planned.object, answer⟩] ++ more :=
      List.mem_append_left _ (List.mem_append_right _ List.mem_cons_self)
    refine Pass.meets_create trivial ?_ ?_ fun _ _ _ => .fail _
    · rintro created _ rfl
      exact .of_mem (List.mem_append_right _ List.mem_cons_self) rfl
    · rintro message _ rfl
      refine Pass.meets_adopt trivial ?_ (fun _ _ _ _ => .fail _) fun _ _ _ => .fail _
      rintro existing _ rfl -
      exact .of_mem hlast rfl
  · refine Pass.meets_replace trivial ?_ (fun _ _ _ => .fail _) fun _ _ _ => .fail _
    rintro replaced _ rfl
    exact .of_mem (List.mem_append_right _ List.mem_cons_self) rfl
  · intro herrors hquiet
    obtain ⟨hlive, hdone⟩ := h herrors hquiet
    exact ⟨hlive, List.forall_mem_cons.2 ⟨⟨other, hlive ▸ hother, hdrift⟩, hdone⟩⟩

theorem meets_applyGroup_quiet {group : Group} (h : Quiet live done pass exchanges) :
    (Pass.applyGroup scope group.type? group.owner group.objects pass).Meets
      (recording fun _ _ => True) (Quiet live (done ++ group.objects)) exchanges := by
  cases hrefusal : group.refusal? scope with
  | some error =>
    rw [Pass.applyGroup_of_refusal pass hrefusal]
    exact Quiet.fail error
  | none =>
    obtain ⟨order, horder, happly⟩ := Pass.exists_order_of_refusal_none hrefusal
    rw [happly]
    refine (meets_forEach_before (fun before => Quiet live (before ++ done))
      (fun before p rest pass exchanges _ h => ?_) h).mono fun pass exchanges h => ?_
    · refine (meets_applyObject_quiet h).mono fun pass exchanges h herrors hquiet => ?_
      obtain ⟨hlive, hdone⟩ := h herrors hquiet
      refine ⟨hlive, fun q hq => hdone q ?_⟩
      simpa [or_left_comm, or_assoc] using hq
    · intro herrors hquiet
      obtain ⟨hlive, hdone⟩ := h herrors hquiet
      refine ⟨hlive, fun q hq => hdone q ?_⟩
      simpa [(PlannedObject.perm_of_applyOrder? horder).mem_iff, or_comm] using hq

/-- A pass that has been quiet to its end has found all objects as they should be. -/
theorem meets_overGroups_quiet (scope : Scope) (groups : List Group) :
    (Pass.overGroups scope groups).Meets (recording fun _ _ => True)
      (fun result exchanges => ∀ pass, result = .ok pass →
        ∃ live, Quiet live (Group.objectsOf groups) pass exchanges) [] := by
  refine Pass.meets_begin_recording (fun _ _ _ => trivial) (fun _ _ _ _ _ => nofun)
    fun lists _ => ?_
  have hstart : Quiet (snapshotOf scope.topology lists) (Group.objectsOf [])
      (Pass.start (snapshotOf scope.topology lists)) lists :=
    fun _ _ => ⟨rfl, fun _ hmem => (List.not_mem_nil hmem).elim⟩
  refine meets_bind.2 ((meets_forEach_before (fun before =>
    Quiet (snapshotOf scope.topology lists) (Group.objectsOf before)) ?_ hstart).mono ?_)
  · intro before group rest pass exchanges _ h
    have happend : Group.objectsOf (before ++ [group]) =
        Group.objectsOf before ++ group.objects := by simp [Group.objectsOf]
    rw [happend]
    exact meets_applyGroup_quiet h
  · intro pass exchanges h
    refine (meets_forEach_mem (Quiet (snapshotOf scope.topology lists) (Group.objectsOf groups))
      (fun entry _ pass exchanges _ => ?_) h).mono ?_
    · refine Pass.meets_delete trivial ?_ ?_ fun _ _ _ => .fail _
      · rintro _ rfl
        exact .of_mem (List.mem_append_right _ List.mem_cons_self) rfl
      · rintro message _ rfl
        exact .of_mem (List.mem_append_right _ List.mem_cons_self) rfl
    · intro pass exchanges h pass' heq
      obtain rfl := Except.ok.inj heq
      exact ⟨_, h⟩

end Quiet

end SecondPass

/-! ## Whole passes -/

section Passes

variable {scope : Scope} {groups : List Group} {program : Program (Except PassError PassReport)}

/-- **The pass after a clean one is quiet**, if no two planned objects have one key: it makes no
write, leaves the store as it is, and reports neither a change nor an error. -/
theorem Reconciles.second_pass {server : Server} {s u : Store} {events : List (Event Store)}
    {report : PassReport} (h : Reconciles scope groups program)
    (hserver : server.Faithful scope.topology) (hfit : Group.Fit scope groups)
    (hdistinct : (Group.keysOf groups).Nodup)
    (hreach : program.Reaches server.Answers s events (.done (.ok report)) u)
    (hclean : report.isClean = true) :
    ∀ events result v, program.Reaches server.Answers u events (.done result) v → v = u ∧
      (∀ event ∈ events, event.call.isWrite = false) ∧
      ∀ report, result = .ok report → report.changeCount = 0 ∧ report.errors = [] := by
  have hfirst := @Reconciles.meets_inPlace _ _ _ server False s h hserver False.elim hfit hdistinct
    False.elim
  have hplace := (hfirst.post_of_reaches hreach).1 report rfl
    (by simpa [PassReport.isClean] using hclean)
  have hsecond := h.meets_of_inPlace hserver hfit hplace
  intro events result v hreach
  obtain ⟨hstore, hreport, -⟩ := hsecond.post_of_reaches hreach
  exact ⟨hstore, hsecond.forall_call (fun _ _ hallowed => hallowed.2) hreach, hreport⟩

/-- **No pass is quiet** if two planned objects of one key are satisfied by no one object: it makes a
write, or it reports an error. -/
theorem Reconciles.not_quiet {p q : PlannedObject} {done : History} {report : PassReport}
    (h : Reconciles scope groups program) (hp : p ∈ Group.objectsOf groups)
    (hq : q ∈ Group.objectsOf groups) (hkey : p.key = q.key)
    (hclash : ∀ live, p.object.needsUpdate live = false → q.object.needsUpdate live = true)
    (hyields : program.Yields done (.ok report)) :
    (∃ exchange ∈ done, exchange.1.isWrite = true) ∨ report.errors ≠ [] := by
  by_contra hquiet
  simp only [not_or, not_exists, not_and, ne_eq, not_not, Bool.not_eq_true] at hquiet
  obtain ⟨hwrites, herrors⟩ := hquiet
  obtain ⟨pass, nodes, hpass, rfl⟩ := h.exists_pass hyields
  obtain ⟨live, hfound⟩ :=
    (SecondPass.meets_overGroups_quiet scope groups).post_of_yields hpass pass rfl
  obtain ⟨-, hall⟩ := hfound herrors hwrites
  obtain ⟨object, hobject, hsatisfied⟩ := hall p hp
  obtain ⟨other, hother, hsatisfied'⟩ := hall q hq
  obtain rfl : object = other := Option.some.inj (hobject.symm.trans (hkey ▸ hother))
  cases (hclash object hsatisfied).symm.trans hsatisfied'

end Passes

end NetLab
