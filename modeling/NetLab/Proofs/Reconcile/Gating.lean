import NetLab.Proofs.Reconcile.Turns

/-!
# Dependencies hold objects back

An object is there if an answer has established it, and what is there stays there; so a replace that
fails holds nobody back.  An object that the snapshot lacks is there only if it was due: all that it
depends on was there before (`Lawful.due_of_there`).  So an object that cannot be created holds back
all that hangs on it by way of objects that the snapshot lacks as well (`Hangs`): none of them is
called for, and each has one error, which names the first dependency that it misses.
-/

namespace NetLab

open Cluster Kube Program

namespace Gating

variable {scope : Scope} {groups : List Group} {done before : History} {root key : Key}

/-! ## What is there, and why -/

/-- Every call was allowed after what had happened before it. -/
def Lawful (scope : Scope) (groups : List Group) (done : History) : Prop :=
  ∀ before exchange after, done = before ++ exchange :: after →
    allows scope groups before exchange.1

/-- What the snapshot lacks was never listed as one of the topology. -/
theorem key_ne_of_listed {topology : String} {kind : Kind} {selector : String}
    {items : List Resource} {object : Resource}
    (hmissing : (snapshotOf topology done).get? key = none)
    (hlist : (⟨.list kind selector, .ok items⟩ : Exchange) ∈ done) (hmem : object ∈ items)
    (hown : object.ownedBy topology = true) : object.key ≠ key := by
  rintro rfl
  have hlisted : Listed topology done object := ⟨hown, _, hlist, hmem⟩
  obtain ⟨found, hfound⟩ := hlisted.exists_get?
  rw [hmissing] at hfound
  cases hfound

namespace Lawful

/-- The calls of a pass over some groups are allowed. -/
theorem of_yields {result : Except PassError Pass}
    (h : (Pass.overGroups scope groups).Yields done result) : Lawful scope groups done := by
  rintro before exchange after rfl
  have hallowed := (meets_overGroups scope groups).allows_of_yields h
  rwa [List.nil_append] at hallowed

/-- **What is there though the snapshot lacks it was due.** -/
theorem due_of_there (h : Lawful scope groups done)
    (hmissing : (snapshotOf scope.topology done).get? key = none)
    (hthere : There scope.topology done key) : Due scope groups done key := by
  obtain ⟨before, exchange, after, object, rfl, -, hest⟩ := hthere.exists_first
  have hallowed := h before exchange after rfl
  have hdue (hbefore : Due scope groups before key) :
      Due scope groups (before ++ exchange :: after) key :=
    hbefore.mono fun _ => List.mem_append_left _
  have hexchange : exchange ∈ before ++ exchange :: after :=
    List.mem_append_right _ List.mem_cons_self
  -- The answer that established it first was not to a list, so the call had to be due.
  cases Evidence.of_establishes hest with
  | listed hmem hown hkey => exact absurd hkey (key_ne_of_listed hmissing hexchange hmem hown)
  | read hown => exact hdue hallowed.1
  | created hkey => exact hdue (hkey ▸ hallowed.1)
  | replaced hkey => exact hdue (hkey ▸ hallowed.1)

/-- What the snapshot lacks is not there if it was neither created nor read back as one of the
topology. -/
theorem not_there_of_failed (h : Lawful scope groups done)
    (hmissing : (snapshotOf scope.topology done).get? key = none)
    (hcreate : ∀ object stored, (⟨.create object, .ok stored⟩ : Exchange) ∈ done →
      object.key ≠ key)
    (hread : ∀ existing, (⟨.get key, .ok existing⟩ : Exchange) ∈ done →
      existing.ownedBy scope.topology = false) :
    ¬ There scope.topology done key := by
  intro hthere
  obtain ⟨before, exchange, after, object, rfl, hfirst, hest⟩ := hthere.exists_first
  have hallowed := h before exchange after rfl
  have hexchange : exchange ∈ before ++ exchange :: after :=
    List.mem_append_right _ List.mem_cons_self
  cases Evidence.of_establishes hest with
  | listed hmem hown hkey => exact key_ne_of_listed hmissing hexchange hmem hown hkey
  | read hown => exact Bool.false_ne_true ((hread object hexchange).symm.trans hown)
  | created hkey => exact hcreate _ object hexchange hkey
  | replaced hkey =>
    -- A replace comes never first: it is made for what is there.
    exact hfirst (hkey ▸ hallowed.2)

/-- **What was to be replaced is there**, whatever came of it. -/
theorem there_of_replace (h : Lawful scope groups done) {object : Resource}
    {answer : Except ClusterError Resource} {after : History} (hsplit : done = before ++ after)
    (hmem : (⟨.replace object, answer⟩ : Exchange) ∈ before) :
    There scope.topology before object.key := by
  obtain ⟨earlier, later, rfl⟩ := List.append_of_mem hmem
  have hallowed := h earlier ⟨.replace object, answer⟩ (later ++ after) (by simp [hsplit])
  exact hallowed.2.mono fun _ => List.mem_append_left _

end Lawful

/-! ## What hangs on an object that is not there -/

/-- **An object hangs on another** if the snapshot lacks it and whatever is planned under its key
depends on something that hangs on the other. -/
inductive Hangs (scope : Scope) (groups : List Group) (snapshot : SortedMap Key Resource)
    (root : Key) : Key → Prop where
  | root : Hangs scope groups snapshot root root
  | dependent {key : Key} (hmissing : snapshot.get? key = none) (via : PlannedObject → Key)
      (hvia : ∀ group ∈ groups, group.refusal? scope = none → ∀ p ∈ group.objects, p.key = key →
        via p ∈ p.dependencies)
      (hhangs : ∀ group ∈ groups, group.refusal? scope = none → ∀ p ∈ group.objects, p.key = key →
        Hangs scope groups snapshot root (via p)) :
      Hangs scope groups snapshot root key

/-- **What hangs on an object that is not there is not there either.** -/
theorem Hangs.not_there (h : Hangs scope groups (snapshotOf scope.topology done) root key)
    (hlawful : Lawful scope groups done) (hroot : ¬ There scope.topology done root) :
    ¬ There scope.topology done key := by
  induction h with
  | root => exact hroot
  | dependent hmissing via hvia _ ih =>
    intro hthere
    -- If it were there, it would have been due, and so what it depends on would be there too.
    obtain ⟨group, hgroup, hfine, p, hp, hkey, hdependencies⟩ :=
      hlawful.due_of_there hmissing hthere
    exact ih group hgroup hfine p hp hkey (hdependencies _ (hvia group hgroup hfine p hp hkey))

/-- An object that depends on something that hangs on a missing one is held back at its turn. -/
theorem held_of_hangs {p : PlannedObject} {calls : History} {errors : List ResourceError}
    {dependency : Key} (hlawful : Lawful scope groups done)
    (hroot : ¬ There scope.topology done root)
    (hhangs : Hangs scope groups (snapshotOf scope.topology done) root dependency)
    (hmem : dependency ∈ p.dependencies) (hbefore : ∀ exchange ∈ before, exchange ∈ done)
    (hturn : ObjectTurn scope.topology before p calls errors) : ∃ first,
      HeldBack scope.topology before p first ∧ errors = [.dependencyNotReady p.key first] := by
  cases hturn with
  | blocked hheld => exact ⟨_, hheld, rfl⟩
  | applied hdependencies _ _ =>
    have hthere := (hdependencies dependency hmem).mono hbefore
    exact absurd hthere (hhangs.not_there hlawful hroot)

/-! ## Passes -/

variable {pass : Pass} {program : Program (Except PassError PassReport)}

/-- An object that lacks a dependency is not called for. -/
theorem calls_eq_nil_of_notReady {topology : String} {p : PlannedObject} {live? : Option Resource}
    {calls : History} {error? : Option ResourceError} {dependency : Key}
    (h : Accounting.Fares topology p live? calls error?)
    (herror : error? = some (.dependencyNotReady key dependency)) : calls = [] := by
  cases h <;> first | rfl | cases herror

/-- An object that lacks a dependency is not called for at all, and has no other error. -/
theorem alone_of_notReady (h : Accounting.Closed scope groups pass done) {group : Group}
    {p : PlannedObject} (hgroup : group ∈ groups) (hp : p ∈ group.objects) {dependency : Key}
    (hmem : .dependencyNotReady p.key dependency ∈ pass.report.errors) :
    Accounting.about p.key done = [] ∧
      Accounting.naming p.key pass.report.errors = [.dependencyNotReady p.key dependency] := by
  have hnamed : .dependencyNotReady p.key dependency ∈
      (Accounting.standing pass done p.key).errors :=
    List.mem_filter.2 ⟨hmem, decide_eq_true rfl⟩
  rcases h.cases_of p.key with ⟨live?, huntouched⟩ |
    ⟨_, -, other, -, -, -, error?, hfares, herrors, -⟩ | ⟨hunplanned, -⟩
  · rw [huntouched] at hnamed
    cases hnamed
  · rw [herrors] at hnamed
    obtain rfl : error? = some (.dependencyNotReady p.key dependency) := by simpa using hnamed
    exact ⟨calls_eq_nil_of_notReady hfares rfl, herrors⟩
  · exact absurd (Group.mem_keysOf hgroup hp) hunplanned

/-- **How dependencies gate a pass** that has come to its end with a report. -/
structure Gates (scope : Scope) (groups : List Group) (done : History) (report : PassReport) :
    Prop where
  /-- The groups have their turns, and their objects in the order of their dependencies. -/
  turns : ∃ lists applied pruned own left, done = lists ++ applied ++ pruned ∧
    report.errors = own ++ left ∧ Turns scope groups lists applied pruned own left
  /-- Every object of a group that is not refused has a turn, at which it is applied or held back. -/
  turn : ∀ group ∈ groups, group.refusal? scope = none → ∀ p ∈ group.objects,
    ∃ before calls after errors, done = before ++ calls ++ after ∧
      (∀ error ∈ errors, error ∈ report.errors) ∧ ObjectTurn scope.topology before p calls errors
  /-- If each key is planned once, an object that is held back is never called for, and the error
  that says so is the only one that names it. -/
  once : (Group.keysOf groups).Nodup → ∀ group ∈ groups, ∀ p ∈ group.objects, ∀ dependency,
    .dependencyNotReady p.key dependency ∈ report.errors →
      Accounting.about p.key done = [] ∧
        Accounting.naming p.key report.errors = [.dependencyNotReady p.key dependency]
  /-- What was to be replaced holds nobody back, whatever came of it. -/
  replaced : ∀ before after object answer, done = before ++ after →
    (⟨.replace object, answer⟩ : Exchange) ∈ before → ∀ p,
      ¬ HeldBack scope.topology before p object.key
  /-- What the snapshot lacks is not there if it could not be created or adopted. -/
  failed : ∀ key, (snapshotOf scope.topology done).get? key = none →
    (∀ object stored, (⟨.create object, .ok stored⟩ : Exchange) ∈ done → object.key ≠ key) →
    (∀ existing, (⟨.get key, .ok existing⟩ : Exchange) ∈ done →
      existing.ownedBy scope.topology = false) →
    ¬ There scope.topology done key
  /-- What is not there holds back all that depends on something that hangs on it. -/
  hanging : ∀ root, ¬ There scope.topology done root → ∀ group ∈ groups,
    group.refusal? scope = none → ∀ p ∈ group.objects, ∀ dependency ∈ p.dependencies,
      Hangs scope groups (snapshotOf scope.topology done) root dependency →
        ∃ before after first, done = before ++ after ∧ HeldBack scope.topology before p first ∧
          .dependencyNotReady p.key first ∈ report.errors

/-- **Dependencies gate a pass.**  Groups whose kinds the pass handles and whose dependencies form no
cycle are not refused; at every point of a run, complete or not, a call for an object is made only
when all that it depends on is there; and in a pass that comes to its end the others are held back. -/
theorem dependencies_gate (h : Reconciles scope groups program) :
    (∀ group ∈ groups, (∀ planned ∈ group.objects, planned.object.kind ∈ scope.kinds) →
      PlannedObject.Acyclic group.objects → group.refusal? scope = none) ∧
    (∀ {σ : Type} (answers : Answering σ) (s t : σ) (earlier later : List (Event σ))
      (event : Event σ) (rest : Program (Except PassError PassReport)),
      program.Reaches answers s (earlier ++ event :: later) rest t →
        allows scope groups (history earlier) event.call) ∧
    ∀ done report, program.Yields done (.ok report) → Gates scope groups done report := by
  refine ⟨fun group _ hkinds hacyclic => ?_, ?_, ?_⟩
  · obtain ⟨order, horder⟩ := PlannedObject.exists_applyOrder?_of_acyclic hacyclic
    exact Group.refusal?_eq_none hkinds horder
  · intro σ answers s t earlier later event rest hreach
    have hmeets : program.Meets (recording (allows scope groups)) (fun _ _ => True) [] :=
      h.meets (meets_overGroups scope groups) (fun _ _ _ _ => trivial) fun _ _ _ => trivial
    exact hmeets.allows_recorded hreach
  · intro done report hyields
    obtain ⟨pass, nodes, hpass, rfl⟩ := h.exists_pass hyields
    have hends : Ends scope groups (.ok pass) done :=
      (meets_overGroups scope groups).post_of_yields hpass
    obtain ⟨-, lists, applied, pruned, own, left, hdone, herrors, hturns⟩ := hends pass rfl
    have hlawful := Lawful.of_yields hpass
    have hturn : ∀ group ∈ groups, group.refusal? scope = none → ∀ p ∈ group.objects,
        ∃ before calls after errors, done = before ++ calls ++ after ∧
          (∀ error ∈ errors, error ∈ pass.report.errors) ∧
            ObjectTurn scope.topology before p calls errors := by
      intro group hgroup hfine p hp
      obtain ⟨before, calls, after, errors, rfl, hmem, hobject⟩ :=
        hturns.exists_turn hgroup hfine hp
      refine ⟨lists ++ before, calls, after ++ pruned, errors, by simp [hdone], ?_, hobject⟩
      exact fun error herror => herrors ▸ List.mem_append_left _ (hmem error herror)
    constructor
    case turns => exact ⟨lists, applied, pruned, own, left, hdone, herrors, hturns⟩
    case turn => exact hturn
    case once =>
      intro hnodup group hgroup p hp dependency hmem
      have hclosed : Accounting.Closed scope groups pass done :=
        (Accounting.meets_overGroups hnodup).post_of_yields hpass pass rfl
      exact alone_of_notReady hclosed hgroup hp hmem
    case replaced =>
      rintro before after object answer hsplit hmem p ⟨_, _, -, -, hmissing⟩
      exact hmissing (hlawful.there_of_replace hsplit hmem)
    case failed => exact fun key => hlawful.not_there_of_failed
    case hanging =>
      intro root hroot group hgroup hfine p hp dependency hmem hhangs
      obtain ⟨before, calls, after, errors, rfl, herror, hobject⟩ := hturn group hgroup hfine p hp
      obtain ⟨first, hheld, rfl⟩ := held_of_hangs hlawful hroot hhangs hmem
        (fun _ hbefore => List.mem_append_left _ (List.mem_append_left _ hbefore)) hobject
      exact ⟨before, calls ++ after, first, List.append_assoc _ _ _, hheld,
        herror _ List.mem_cons_self⟩

/-- A node with a ConfigMap, a Deployment that mounts it, and a Service for the Deployment. -/
def chainPlans : SortedMap String NodePlan := .ofList [
  ("r1", ⟨.container, [.free (labelled .configMap "lab-r1" "lab"),
    ⟨labelled .deployment "lab-r1" "lab", [⟨.configMap, "lab-r1"⟩]⟩,
    ⟨labelled .service "lab-r1" "lab", [⟨.deployment, "lab-r1"⟩]⟩]⟩)]

/-- The ConfigMap cannot be created, which holds back the Deployment, and that the Service. -/
theorem chain_is_held_back : ∃ done report,
    (reconcileWorkloads "lab" "sim" chainPlans).Yields done (.ok report) ∧
      Gates (.workloads "lab" "sim") (NodePlan.groups chainPlans) done report ∧
      report.errors = [.api ⟨.configMap, "lab-r1"⟩ .create .client,
        .dependencyNotReady ⟨.deployment, "lab-r1"⟩ ⟨.configMap, "lab-r1"⟩,
        .dependencyNotReady ⟨.service, "lab-r1"⟩ ⟨.deployment, "lab-r1"⟩] := by
  obtain ⟨report, hyields, hcheck⟩ := @Pruning.exists_yields_of_trace Pruning.creationFails
    (reconcileWorkloads "lab" "sim" chainPlans) ∅ (fun report =>
      report.errors = [.api ⟨.configMap, "lab-r1"⟩ .create .client,
        .dependencyNotReady ⟨.deployment, "lab-r1"⟩ ⟨.configMap, "lab-r1"⟩,
        .dependencyNotReady ⟨.service, "lab-r1"⟩ ⟨.deployment, "lab-r1"⟩]) (by decide +kernel)
  obtain ⟨-, -, hgates⟩ := dependencies_gate (.workloads "lab" "sim" chainPlans)
  exact ⟨_, report, hyields, hgates _ report hyields, of_decide_eq_true hcheck⟩

end Gating

end NetLab
