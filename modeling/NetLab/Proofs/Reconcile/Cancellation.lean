import NetLab.Controller.Pass
import NetLab.Proofs.Cluster.Interruption
import NetLab.Proofs.Reconcile.Pruning

/-!
# Cancelled controller passes

A controller pass that is cancelled, before a call or in the middle of one, stops there
(`stops_cleanly`).  What it has called by then it would have called anyway, it reports that it was
cancelled, and it has written nothing on behalf of a pass that does not have its snapshot.  A list
that fails ends it in the same way, and a fault of the topology does so before the first call.
-/

namespace NetLab.Cancellation

open Cluster Kube Program

variable {scope : Scope} {scopes : List Scope} {groups : List Group} {done before : History}

/-! ## Lists that fail -/

/-- The kind could not be listed. -/
def ListFailed (exchange : Exchange) : Prop :=
  exchange.1.key? = none ∧ ¬ exchange.1.ShowsAll exchange.2

/-- The last pass has its snapshot. -/
def SnapshotTaken (scope : Scope) (done : History) : Prop :=
  ∃ before now, done = before ++ now ∧ AfterSnapshot scope now

/-- **What a pass may call**: nothing once a list has failed, and what writes only if the pass has
its snapshot. -/
def allows (scopes : List Scope) (done : History) (call : Call) : Prop :=
  (∀ exchange ∈ done, ¬ ListFailed exchange) ∧
    (call.isWrite = true → ∃ scope ∈ scopes, SnapshotTaken scope done ∧
      ((∀ exchange ∈ done, exchange.1.OfKind exchange.2) → call.kind ∈ scope.kinds))

/-- What comes of a history: a list that has failed is the last call, and is the error. -/
def Ends : Option PassError → History → Prop
  | none, done => ∀ exchange ∈ done, ¬ ListFailed exchange
  | some error, done => ∃ earlier kind selector e,
      done = earlier ++ [⟨.list kind selector, .error e⟩] ∧ error = .list kind e ∧
        ∀ exchange ∈ earlier, ¬ ListFailed exchange

theorem not_failed_of_shows {lists : History}
    (h : ∀ exchange ∈ lists, exchange.1.ShowsAll exchange.2) :
    ∀ exchange ∈ lists, ¬ ListFailed exchange :=
  fun exchange hmem hfailed => hfailed.2 (h exchange hmem)

theorem not_failed_of_keyed {more : History} (h : ∀ exchange ∈ more, exchange.1.key? ≠ none) :
    ∀ exchange ∈ more, ¬ ListFailed exchange :=
  fun exchange hmem hfailed => h exchange hmem hfailed.1

theorem not_failed_of_afterSnapshot (h : AfterSnapshot scope done) :
    ∀ exchange ∈ done, ¬ ListFailed exchange := by
  obtain ⟨lists, more, rfl, hsnapshot, hmore⟩ := h
  refine List.forall_mem_append.2 ⟨not_failed_of_shows hsnapshot.complete,
    not_failed_of_keyed fun exchange hmem => ?_⟩
  obtain ⟨key, hkey⟩ := hmore exchange hmem
  rw [hkey]
  exact nofun

/-- Whatever a pass calls, none of its lists has failed. -/
theorem not_failed_of_allows {call : Call} (h : Pruning.allows scope groups done call) :
    ∀ exchange ∈ done, ¬ ListFailed exchange := by
  cases call with
  | list kind selector => exact not_failed_of_shows h.2.2
  | get _ | create _ | replace _ | delete _ => exact not_failed_of_afterSnapshot h.1

/-- What writes is of a kind of the pass, which has its snapshot. -/
theorem kind_mem_of_write {call : Call} (h : Pruning.allows scope groups done call)
    (hwrite : call.isWrite = true) : AfterSnapshot scope done ∧
      ((∀ exchange ∈ done, exchange.1.OfKind exchange.2) → call.kind ∈ scope.kinds) := by
  cases call with
  | list _ _ | get _ => cases hwrite
  | create _ | replace _ => exact ⟨h.1, fun _ => h.2.2.1⟩
  | delete key =>
    obtain ⟨hafter, -, ⟨object, hlisted, rfl⟩, -⟩ := h
    refine ⟨hafter, fun hkinds => ?_⟩
    obtain ⟨lists, more, rfl, hsnapshot, hmore⟩ := hafter
    have hlists : Listed scope.topology lists object := by
      refine (listed_append fun exchange hmem => ?_).1 hlisted
      obtain ⟨key, hkey⟩ := hmore exchange hmem
      exact Call.listed_eq_nil hkey
    exact hlists.kind_mem hsnapshot fun exchange hmem =>
      hkinds exchange (List.mem_append_left _ hmem)

theorem allows_of_pruning {call : Call} (hscope : scope ∈ scopes)
    (hbefore : ∀ exchange ∈ before, ¬ ListFailed exchange)
    (h : Pruning.allows scope groups done call) : allows scopes (before ++ done) call := by
  refine ⟨List.forall_mem_append.2 ⟨hbefore, not_failed_of_allows h⟩, fun hwrite => ?_⟩
  obtain ⟨hafter, hkind⟩ := kind_mem_of_write h hwrite
  exact ⟨scope, hscope, ⟨before, done, rfl, hafter⟩,
    fun hkinds => hkind fun exchange hmem => hkinds exchange (List.mem_append_right _ hmem)⟩

/-! ## Passes -/

/-- The error of a pass. -/
def error? {α : Type} : Except PassError α → Option PassError
  | .ok _ => none
  | .error error => some error

theorem ends_of_pruning {pass? : Except PassError Pass}
    (hbefore : ∀ exchange ∈ before, ¬ ListFailed exchange)
    (h : Pruning.Ends scope groups pass? done) : Ends (error? pass?) (before ++ done) := by
  cases pass? with
  | ok pass =>
    obtain ⟨lists, applied, pruned, keys, rfl, hprunes⟩ := h
    exact List.forall_mem_append.2 ⟨hbefore, not_failed_of_afterSnapshot hprunes.afterSnapshot⟩
  | error error =>
    obtain ⟨lists, kind, e, hlisting, rfl, rfl⟩ := h
    refine ⟨before ++ lists, kind, _, e, (List.append_assoc _ _ _).symm, rfl, ?_⟩
    exact List.forall_mem_append.2 ⟨hbefore, not_failed_of_shows hlisting.2⟩

/-- **A pass after what was called before it.** -/
theorem meets_pass {program : Program (Except PassError PassReport)}
    (h : Reconciles scope groups program) (hscope : scope ∈ scopes)
    (hbefore : ∀ exchange ∈ before, ¬ ListFailed exchange) :
    program.Meets (recording (allows scopes)) (fun result done => Ends (error? result) done)
      before := by
  have hover := (Pruning.meets_overGroups scope groups).recast
    (fun _ _ hallowed => allows_of_pruning hscope hbefore hallowed)
    fun _ _ hends => ends_of_pruning hbefore hends
  rw [List.append_nil] at hover
  exact h.meets hover (fun _ _ _ hends => hends) fun _ _ hends => hends

/-- The error with which a pass has ended a controller pass. -/
def passError? : Except ControlError TopologyReport → Option PassError
  | .error (.pass error) => some error
  | .error (.links _) | .error (.render _) | .ok _ => none

/-- The passes of a controller pass. -/
def passes (topology namespaceName : String) : List Scope :=
  [.workloads topology namespaceName, .connectivity topology namespaceName]

theorem meets_reconcileTopology (t : Topology) (c : Classifier) (namespaceName : String) :
    (reconcileTopology t c namespaceName).Meets (recording (allows (passes t.name namespaceName)))
      (fun result done => Ends (passError? result) done) [] := by
  have hnone : ∀ exchange ∈ ([] : History), ¬ ListFailed exchange :=
    fun _ hmem => (List.not_mem_nil hmem).elim
  unfold reconcileTopology
  split
  · exact hnone
  · split
    · exact hnone
    · refine meets_bind.2 ((meets_pass (.workloads _ _ _) List.mem_cons_self hnone).mono
        fun result done hends => ?_)
      cases result with
      | error error => exact hends
      | ok workloads =>
        refine meets_bind.2 ((meets_pass (.policies _ _ _)
          (List.mem_cons_of_mem _ List.mem_cons_self) hends).mono fun result done hends => ?_)
        cases result with
        | error error => exact hends
        | ok connectivity => exact hends

/-! ## Controller passes -/

/-- If a node cannot be rendered, then the topology cannot. -/
theorem exists_render_error {t : Topology} {c : Classifier} {namespaceName node : String}
    {definition : NodeDefinition} {error : RenderError}
    (hmem : (node, definition) ∈ t.nodes.entries)
    (h : t.renderNode c namespaceName (t.workloadName node) (t.nodeConfig node definition) =
      .error error) : ∃ error, t.render c namespaceName = .error error := by
  suffices ∀ taken entries, (node, definition) ∈ entries →
      ∃ error, t.renderNodes c namespaceName taken entries = .error error by
    obtain ⟨error, herror⟩ := this ∅ _ hmem
    exact ⟨error, by rw [Topology.render, Topology.renderDefinitions, herror]; rfl⟩
  intro taken entries hentry
  induction entries generalizing taken with
  | nil => cases hentry
  | cons first rest ih =>
    obtain ⟨name, other⟩ := first
    unfold Topology.renderNodes
    dsimp only
    split
    · exact ⟨_, rfl⟩
    · rcases List.mem_cons.1 hentry with heq | hrest
      · obtain ⟨rfl, rfl⟩ := Prod.mk.inj heq
        rw [h]
        exact ⟨error, rfl⟩
      · obtain ⟨later, hlater⟩ := ih (taken.insert (t.workloadName name) name) hrest
        rw [hlater]
        cases t.renderNode c namespaceName (t.workloadName name) (t.nodeConfig name other) with
        | error error => exact ⟨error, rfl⟩
        | ok rendered => exact ⟨later, rfl⟩

/-- A pass that was not interrupted does not report that it was cancelled. -/
theorem ne_cancelled {result : Except ControlError TopologyReport}
    (h : Ends (passError? result) done) : result ≠ .error (.pass .cancelled) := by
  rintro rfl
  obtain ⟨earlier, kind, selector, e, -, heq, -⟩ := h
  cases heq

/-- What ends with a list that has failed reports that. -/
theorem eq_of_list_failed {result : Except ControlError TopologyReport} {kind : Kind}
    {selector : String} {e : ClusterError}
    (h : Ends (passError? result) (done ++ [⟨.list kind selector, .error e⟩]))
    (hfailed : ListFailed ⟨.list kind selector, .error e⟩) :
    result = .error (.pass (.list kind e)) := by
  have hmem : (⟨.list kind selector, .error e⟩ : Exchange) ∈
      done ++ [⟨.list kind selector, .error e⟩] := List.mem_append_right _ List.mem_cons_self
  match result with
  | .ok _ | .error (.links _) | .error (.render _) => exact absurd hfailed (h _ hmem)
  | .error (.pass error) =>
    obtain ⟨earlier, kind', selector', e', hlast, rfl, -⟩ := h
    obtain ⟨-, hsame⟩ := List.append_inj' hlast rfl
    cases hsame
    rfl

theorem listFailed_of {kind : Kind} {selector : String} {e : ClusterError}
    (h : ¬ (kind = .virtualMachine ∧ ∃ message, e = .notFound message)) :
    ListFailed ⟨.list kind selector, .error e⟩ := by
  refine ⟨rfl, fun hshows => ?_⟩
  cases e with
  | notFound message => exact h ⟨hshows, message, rfl⟩
  | alreadyExists _ | conflict _ | api _ | client => exact hshows

/-- **A list that fails is the last call**, and the error that is reported. -/
theorem ends_at_failed_list {σ : Type} {program : Program (Except ControlError TopologyReport)}
    {stopped : σ → Bool} {answer : (call : Call) → σ → Option call.Answer × σ} {s before : σ}
    {earlier later : List (Attempt σ)} {result? : Option (Except ControlError TopologyReport)}
    {kind : Kind} {selector : String} {e : ClusterError}
    (hruns : Runs stopped answer program s
      (earlier ++ ⟨before, .list kind selector, some (.error e)⟩ :: later) result?)
    (hmeets : program.Meets (recording (allows scopes))
      (fun result done => Ends (passError? result) done) [])
    (hfailed : ListFailed ⟨.list kind selector, .error e⟩) :
    later = [] ∧ controllerOutcome result? = .error (.pass (.list kind e)) := by
  have hlast : answered (earlier ++ [⟨before, .list kind selector, some (.error e)⟩]) =
      answered earlier ++ [⟨.list kind selector, .error e⟩] := answered_append _ _
  have hnothing (call : Call) :
      ¬ allows scopes (answered earlier ++ [⟨.list kind selector, .error e⟩]) call :=
    fun hallowed => hallowed.1 _ (List.mem_append_right _ List.mem_cons_self) hfailed
  cases later with
  | cons next rest =>
    -- The next call would have been allowed after the failed list.
    rw [← List.singleton_append, ← List.append_assoc] at hruns
    have hallowed := hruns.allows_attempt hmeets
    rw [hlast] at hallowed
    exact absurd hallowed (hnothing _)
  | nil =>
    refine ⟨rfl, ?_⟩
    cases result? with
    | none =>
      -- An interrupted run would have gone on with an allowed call.
      obtain ⟨call, hallowed⟩ := hruns.exists_allowed hmeets
      rw [hlast] at hallowed
      exact absurd hallowed (hnothing call)
    | some result =>
      have hends := hruns.post_of_some hmeets
      rw [hlast] at hends
      exact eq_of_list_failed hends hfailed

/-- **How a controller pass stops**, with the calls that it starts and what it reports. -/
structure StopsCleanly {σ : Type} (t : Topology) (c : Classifier) (namespaceName : String)
    (stopped : σ → Bool) (answer : (call : Call) → σ → Option call.Answer × σ) (s : σ)
    (attempts : List (Attempt σ)) (reported : Except ControlError TopologyReport) : Prop where
  /-- A topology that is not valid costs no call. -/
  invalid : ∀ error, t.check = .error error → attempts = [] ∧ reported = .error (.links error)
  unrendered : ∀ error, t.check = .ok () → t.render c namespaceName = .error error →
    attempts = [] ∧ reported = .error (.render error)
  /-- Nor does one with a node that cannot be rendered. -/
  node : ∀ node definition error, (node, definition) ∈ t.nodes.entries →
    t.renderNode c namespaceName (t.workloadName node) (t.nodeConfig node definition) =
      .error error → attempts = []
  /-- A pass writes only if all lists of its kinds have succeeded. -/
  writes : ∀ earlier attempt later, attempts = earlier ++ attempt :: later →
    attempt.call.isWrite = true → ∃ scope ∈ passes t.name namespaceName,
      SnapshotTaken scope (answered earlier) ∧
        ((∀ exchange ∈ answered earlier, exchange.1.OfKind exchange.2) →
          attempt.call.kind ∈ scope.kinds)
  /-- A list that fails is the last call, and is what is reported. -/
  listFailed : ∀ earlier before kind selector e later,
    attempts = earlier ++ ⟨before, .list kind selector, some (.error e)⟩ :: later →
    ¬ (kind = .virtualMachine ∧ ∃ message, e = .notFound message) →
      later = [] ∧ reported = .error (.pass (.list kind e))
  /-- The pass reports that it was cancelled exactly if it was, before a call or during one. -/
  cancelled : reported = .error (.pass .cancelled) ↔
    Interrupted stopped answer (reconcileTopology t c namespaceName) s
  /-- No call starts after the pass was told to stop. -/
  goes : ∀ attempt ∈ attempts, stopped attempt.before = false
  /-- None starts after one that was never answered. -/
  last : ∀ earlier attempt later, attempts = earlier ++ attempt :: later →
    attempt.answer? = none → later = []
  /-- What was called is what is called when nothing interrupts the pass, as far as it got. -/
  calls : ∀ answer' : (call : Call) → σ → call.Answer × σ,
    (∀ call s result t, answer call s = (some result, t) → answer' call s = (result, t)) →
      attempts.map Attempt.call <+:
        ((reconcileTopology t c namespaceName).trace answer' s).1.map Event.call

/-- **A controller pass that is cancelled stops cleanly**, whatever the topology and the answers,
and wherever it is told to stop. -/
theorem stops_cleanly {σ : Type} (t : Topology) (c : Classifier) (namespaceName : String)
    (stopped : σ → Bool) (answer : (call : Call) → σ → Option call.Answer × σ) (s : σ) :
    StopsCleanly t c namespaceName stopped answer s
      ((reconcileTopology t c namespaceName).attempts stopped answer s)
      (controllerOutcome ((reconcileTopology t c namespaceName).run stopped answer s).1) := by
  have hruns := @runs_run _ _ stopped answer (reconcileTopology t c namespaceName) s
  have hmeets := meets_reconcileTopology t c namespaceName
  have hinvalid : ∀ error, t.check = .error error →
      reconcileTopology t c namespaceName = .done (.error (.links error)) := by
    intro error hcheck
    unfold reconcileTopology
    rw [hcheck]
  have hrender : ∀ error, t.check = .ok () → t.render c namespaceName = .error error →
      reconcileTopology t c namespaceName = .done (.error (.render error)) := by
    intro error hcheck herror
    unfold reconcileTopology
    rw [hcheck, herror]
  constructor
  case invalid =>
    intro error hcheck
    rw [hinvalid error hcheck]
    exact ⟨rfl, rfl⟩
  case unrendered =>
    intro error hcheck herror
    rw [hrender error hcheck herror]
    exact ⟨rfl, rfl⟩
  case node =>
    intro node definition error hmem hnode
    obtain ⟨renderError, hfails⟩ := exists_render_error hmem hnode
    cases hcheck : t.check with
    | error linkError => rw [hinvalid linkError hcheck]; rfl
    | ok _ => rw [hrender renderError hcheck hfails]; rfl
  case writes =>
    intro earlier attempt later hattempts hwrite
    rw [hattempts] at hruns
    exact (hruns.allows_attempt hmeets).2 hwrite
  case goes => exact hruns.goes
  case last =>
    intro earlier attempt later hattempts hunanswered
    rw [hattempts] at hruns
    exact (hruns.eq_nil_of_unanswered hunanswered).1
  case calls => exact fun answer' hsame => hruns.calls_prefix hsame
  case cancelled =>
    refine Iff.trans ?_ hruns.eq_none_iff
    cases hrun : ((reconcileTopology t c namespaceName).run stopped answer s).1 with
    | none => exact ⟨fun _ => rfl, fun _ => rfl⟩
    | some result =>
      rw [hrun] at hruns
      exact ⟨fun hcancelled => absurd hcancelled (ne_cancelled (hruns.post_of_some hmeets)), nofun⟩
  case listFailed =>
    intro earlier before kind selector e later hattempts hserved
    rw [hattempts] at hruns
    exact ends_at_failed_list hruns hmeets (listFailed_of hserved)

end NetLab.Cancellation
