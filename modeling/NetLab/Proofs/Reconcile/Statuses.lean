import NetLab.Proofs.Reconcile.Gating
import NetLab.Proofs.Reconcile.Isolation

/-!
# What the status of a node tells

A workload pass reports each node by the object that an answer has established last under the key of
its workload (`StatusesFollow.observed`).  That is what the answers have told last (`told`), with one
exception: a pass keeps what it knows of an object when the object was to be replaced and the answer
says that there is none.  The status of such a node is that of an object that has vanished
(`Vanished`); all others tell the truth.
-/

namespace NetLab

open Cluster Kube Program

/-! ## Kinds -/

/-- An answer shows an object of the kind that the call is about. -/
def Cluster.Call.keepsKind : (call : Call) → call.Answer → Bool
  | .get key, .ok object => object.kind = key.kind
  | .create sent, .ok stored | .replace sent, .ok stored => stored.kind = sent.kind
  | .list _ _, _ | .delete _, _ | .get _, .error _ | .create _, .error _ | .replace _, .error _ =>
    true

/-- **Whatever the API server replies**, an object is read as one of the kind that was asked for. -/
theorem Cluster.Call.keepsKind_answer (reply : Reply) (call : Call) :
    call.keepsKind (call.answer reply) = true := by
  have hread {kind : Kind} {object : Resource}
      (h : Client.read (Resource.ofJson? kind) reply = .ok object) : object.kind = kind := by
    obtain ⟨json, hjson⟩ := Client.exists_of_read h
    exact Resource.kind_of_ofJson? hjson
  cases call with
  | get key =>
    cases hanswer : Call.answer reply (.get key) with
    | error e => rfl
    | ok object => exact decide_eq_true (hread hanswer)
  | create sent =>
    cases hanswer : Call.answer reply (.create sent) with
    | error e => rfl
    | ok stored => exact decide_eq_true (hread hanswer)
  | replace sent =>
    cases hanswer : Call.answer reply (.replace sent) with
    | error e => rfl
    | ok stored => exact decide_eq_true (hread hanswer)
  | list kind selector | delete key => cases Call.answer reply _ <;> rfl

/-- What is known under a key is of the kind of the key, if answers keep kinds. -/
theorem kind_of_known {topology : String} {done : History} {key : Key} {object : Resource}
    (h : known topology done key = some object)
    (hkinds : ∀ exchange ∈ done, exchange.1.keepsKind exchange.2 = true) :
    object.kind = key.kind := by
  obtain ⟨exchange, hmem, hest⟩ := exists_of_known h
  have hkind := hkinds exchange hmem
  cases Evidence.of_establishes hest with
  | listed _ _ hkey => exact congrArg Key.kind hkey
  | read _ => exact of_decide_eq_true hkind
  | created hkey | replaced hkey =>
    exact (of_decide_eq_true hkind).trans (congrArg Key.kind hkey)

namespace NodeStatus

variable {type : WorkloadType} {live : Resource} {live? : Option Resource}

/-- A workload that is there is told from one that is missing, whatever its phase is called. -/
theorem observe_ne_missing (hkind : live.kind = type.kind) :
    observe type (some live) ≠ missing type := by
  intro heq
  have hmessage := congrArg message heq
  cases type with
  | container =>
    have hkind : live.kind = .deployment := hkind
    simp only [observe, hkind, ofDeployment] at hmessage
    split at hmessage
    · exact absurd hmessage (by decide)
    · split at hmessage <;> exact absurd hmessage (by decide)
  | vm =>
    have hkind : live.kind = .virtualMachine := hkind
    simp only [observe, hkind, ofVirtualMachine] at hmessage
    split at hmessage
    · exact absurd hmessage (by decide)
    · split at hmessage
      · -- Whatever the phase, the message begins with another letter.
        have hfirst := congrArg (fun text => text.toList.head?) hmessage
        simp at hfirst
        exact absurd hfirst (by decide)
      · exact absurd hmessage (by decide)

theorem observe_eq_missing_iff (hkind : ∀ live, live? = some live → live.kind = type.kind) :
    observe type live? = missing type ↔ live? = none := by
  cases live? with
  | none => exact iff_of_true rfl rfl
  | some live => exact iff_of_false (observe_ne_missing (hkind live rfl)) nofun

/-- The status of a workload says what the node runs as. -/
theorem workloadType_observe (hkind : ∀ live, live? = some live → live.kind = type.kind) :
    (observe type live?).workloadType = type := by
  cases live? with
  | none => rfl
  | some live =>
    have hlive := hkind live rfl
    cases type with
    | container =>
      have hlive : live.kind = .deployment := hlive
      simp only [observe, hlive, ofDeployment]
      split
      · rfl
      · split <;> rfl
    | vm =>
      have hlive : live.kind = .virtualMachine := hlive
      simp only [observe, hlive, ofVirtualMachine]
      split
      · rfl
      · split <;> rfl

end NodeStatus

/-! ## What the answers tell -/

/-- An answer tells that there is no object under the key. -/
def Cluster.Call.denies (key : Key) : (call : Call) → call.Answer → Bool
  | .get asked, .error (.notFound _) => asked = key
  | .replace sent, .error (.notFound _) => sent.key = key
  | .delete asked, .ok _ | .delete asked, .error (.notFound _) => asked = key
  | .list _ _, _ | .create _, _ | .get _, .ok _ | .replace _, .ok _ => false
  | .get _, .error _ | .replace _, .error _ | .delete _, .error _ => false

/-- The object under a key by the last answer that tells of it. -/
def told (topology : String) (done : History) (key : Key) : Option Resource :=
  done.foldl (fun told exchange =>
    if exchange.1.denies key exchange.2 then none
    else (exchange.1.establishes topology key exchange.2).or told) none

/-- **An object has vanished**: it was to be replaced, the answer says that there is none, and none
has been established since. -/
def Vanished (topology : String) (done : History) (key : Key) : Prop :=
  ∃ before object message after,
    done = before ++ ⟨.replace object, .error (.notFound message)⟩ :: after ∧ object.key = key ∧
      ∀ exchange ∈ after, exchange.1.establishes topology key exchange.2 = none

namespace Statuses

variable {topology : String} {done before after : History} {key : Key} {exchange : Exchange}

theorem told_concat (exchange : Exchange) : told topology (done ++ [exchange]) key =
    if exchange.1.denies key exchange.2 then none
    else (exchange.1.establishes topology key exchange.2).or (told topology done key) := by
  simp [told]

/-- **How an object is denied.** -/
inductive Denial (key : Key) : Exchange → Prop where
  | unread (message : String) : Denial key ⟨.get key, .error (.notFound message)⟩
  | unreplaced (message : String) {sent : Resource} (hkey : sent.key = key) :
      Denial key ⟨.replace sent, .error (.notFound message)⟩
  | deleted (answer : Except ClusterError Unit) : Denial key ⟨.delete key, answer⟩

theorem Denial.of_denies (h : exchange.1.denies key exchange.2 = true) : Denial key exchange := by
  obtain ⟨call, answer⟩ := exchange
  cases call with
  | list _ _ | create _ => cases h
  | get asked =>
    cases answer with
    | ok found => cases h
    | error e =>
      cases e with
      | notFound message =>
        obtain rfl := of_decide_eq_true h
        exact .unread message
      | alreadyExists _ | conflict _ | api _ | client => cases h
  | replace sent =>
    cases answer with
    | ok stored => cases h
    | error e =>
      cases e with
      | notFound message => exact .unreplaced message (of_decide_eq_true h)
      | alreadyExists _ | conflict _ | api _ | client => cases h
  | delete asked =>
    cases answer with
    | ok _ =>
      obtain rfl := of_decide_eq_true h
      exact .deleted _
    | error e =>
      cases e with
      | notFound message =>
        obtain rfl := of_decide_eq_true h
        exact .deleted _
      | alreadyExists _ | conflict _ | api _ | client => cases h

/-- **What was denied, and not established since, is told to be missing.** -/
theorem told_eq_none (hdenies : exchange.1.denies key exchange.2 = true)
    (hafter : ∀ later ∈ after, later.1.establishes topology key later.2 = none) :
    told topology (before ++ exchange :: after) key = none := by
  induction after using List.reverseRecOn with
  | nil => rw [told_concat, if_pos hdenies]
  | append_singleton after last ih =>
    obtain ⟨hearlier, hlast⟩ := List.forall_mem_append.1 hafter
    rw [← List.cons_append, ← List.append_assoc, told_concat, ih hearlier,
      hlast last List.mem_cons_self, Option.or_none, ite_self]

/-- What the answers tell is what is known, unless an answer has denied it since. -/
theorem told_eq_known_or (topology : String) (done : History) (key : Key) :
    told topology done key = known topology done key ∨
      ∃ before exchange after, done = before ++ exchange :: after ∧
        exchange.1.denies key exchange.2 = true ∧
        ∀ later ∈ after, later.1.establishes topology key later.2 = none := by
  induction done using List.reverseRecOn with
  | nil => exact Or.inl rfl
  | append_singleton done last ih =>
    by_cases hdenies : last.1.denies key last.2 = true
    · exact Or.inr ⟨done, last, [], rfl, hdenies, fun _ hmem => (List.not_mem_nil hmem).elim⟩
    · rw [told_concat, if_neg hdenies, known_concat]
      cases hest : last.1.establishes topology key last.2 with
      | some object => exact Or.inl rfl
      | none =>
        rcases ih with hsame | ⟨before, exchange, after, rfl, hdenied, hafter⟩
        · exact Or.inl (by rw [hsame])
        · refine Or.inr ⟨before, exchange, after ++ [last], by simp, hdenied, ?_⟩
          exact List.forall_mem_append.2 ⟨hafter, List.forall_mem_singleton.2 hest⟩

theorem told_eq_none_of_vanished (h : Vanished topology done key) :
    told topology done key = none := by
  obtain ⟨before, object, message, after, rfl, hkey, hafter⟩ := h
  exact told_eq_none (decide_eq_true hkey) hafter

variable {scope : Scope} {groups : List Group}

/-- What has vanished is still known. -/
theorem exists_known_of_vanished (hlawful : Gating.Lawful scope groups done)
    (h : Vanished scope.topology done key) : ∃ live, known scope.topology done key = some live := by
  obtain ⟨before, object, message, after, rfl, rfl, -⟩ := h
  exact there_iff.1 (hlawful.there_of_replace (List.append_nil _).symm
    (List.mem_append_right _ List.mem_cons_self))

/-- **Unless an object was deleted or has vanished, what is known of it is what the answers tell.** -/
theorem told_eq_known (hlawful : Gating.Lawful scope groups done)
    (hdelete : ∀ answer, (⟨.delete key, answer⟩ : Exchange) ∉ done)
    (hstays : ¬ Vanished scope.topology done key) :
    told scope.topology done key = known scope.topology done key := by
  rcases told_eq_known_or scope.topology done key with
    hsame | ⟨before, exchange, after, rfl, hdenies, hafter⟩
  · exact hsame
  · cases Denial.of_denies hdenies with
    | unread message =>
      -- It was read because it had not been there, so nothing is known of it.
      have hallowed := hlawful before _ after rfl
      rw [told_eq_none hdenies hafter, known_of_silent, not_there_iff.1 hallowed.2]
      exact List.forall_mem_cons.2 ⟨rfl, hafter⟩
    | unreplaced message hkey =>
      exact absurd ⟨before, _, message, after, rfl, hkey, hafter⟩ hstays
    | deleted answer =>
      exact absurd (List.mem_append_right _ List.mem_cons_self) (hdelete answer)

/-- What is planned is not deleted. -/
theorem not_deleted_of_planned {pass : Pass}
    (hpass : (Pass.overGroups scope groups).Yields done (.ok pass))
    (hkey : key ∈ Group.keysOf groups) (answer : Except ClusterError Unit) :
    (⟨.delete key, answer⟩ : Exchange) ∉ done := by
  intro hmem
  have hends : Pruning.Ends scope groups (.ok pass) done :=
    (Pruning.meets_overGroups scope groups).post_of_yields hpass
  obtain ⟨lists, applied, pruned, keys, rfl, hprunes⟩ := hends
  have hdeleted : Call.delete key ∈ keys.map Call.delete := by
    rw [← hprunes.deletes_eq]
    exact List.mem_filter.2 ⟨List.mem_map_of_mem hmem, rfl⟩
  obtain ⟨other, hother, heq⟩ := List.mem_map.1 hdeleted
  obtain rfl := Call.delete.inj heq
  exact ((hprunes.mem_keys _).1 hother).2 hkey

/-! ## Reports -/

/-- **How the nodes of a report follow the answers** of a pass. -/
structure StatusesFollow (topology : String) (plans : SortedMap String NodePlan) (done : History)
    (report : PassReport) : Prop where
  /-- Every node has a status. -/
  keys : report.nodes.keys = plans.keys
  /-- It is that of the object that was established last. -/
  observed : ∀ node plan, plans.get? node = some plan → report.nodes.get? node =
    some (.observe plan.workloadType (plan.workloadKey?.bind (known topology done)))
  /-- It has the type of the plan. -/
  type : (∀ exchange ∈ done, exchange.1.keepsKind exchange.2 = true) →
    ∀ node plan, plans.get? node = some plan → ∀ status, report.nodes.get? node = some status →
      status.workloadType = plan.workloadType
  /-- A node is missing exactly if no object was ever established for it. -/
  missing_iff : (∀ exchange ∈ done, exchange.1.keepsKind exchange.2 = true) →
    ∀ node plan, plans.get? node = some plan →
      (report.nodes.get? node = some (.missing plan.workloadType) ↔
        ∀ key, plan.workloadKey? = some key → ¬ There topology done key)
  /-- It is what the answers have told last, exactly if the object has not vanished. -/
  told_iff : (∀ exchange ∈ done, exchange.1.keepsKind exchange.2 = true) →
    ∀ node plan, plans.get? node = some plan →
      (report.nodes.get? node =
          some (.observe plan.workloadType (plan.workloadKey?.bind (told topology done))) ↔
        ∀ key, plan.workloadKey? = some key → ¬ Vanished topology done key)

theorem kind_of_workloadKey? {plan : NodePlan} (h : plan.workloadKey? = some key) :
    key.kind = plan.workloadType.kind := by
  obtain ⟨object, hobject, rfl⟩ := Option.map_eq_some_iff.1 h
  have hkind := List.find?_some (show List.find? _ _ = some object from hobject)
  exact of_decide_eq_true hkind

theorem mem_keysOf_groups {plans : SortedMap String NodePlan} {node : String} {plan : NodePlan}
    (hplan : plans.get? node = some plan) (h : plan.workloadKey? = some key) :
    key ∈ Group.keysOf (NodePlan.groups plans) := by
  refine List.mem_flatMap.2 ⟨⟨node, some plan.workloadType, plan.objects⟩, ?_,
    Isolation.workloadKey?_mem h⟩
  exact List.mem_map.2 ⟨(node, plan), SortedMap.get?_eq_some_iff.1 hplan, rfl⟩

variable {plans : SortedMap String NodePlan} {plan : NodePlan}

/-- What is known of the workload of a node is a workload of its type. -/
theorem kind_of_seen (hkinds : ∀ exchange ∈ done, exchange.1.keepsKind exchange.2 = true)
    (live : Resource) (h : plan.workloadKey?.bind (known topology done) = some live) :
    live.kind = plan.workloadType.kind := by
  obtain ⟨key, hkey, hknown⟩ := Option.bind_eq_some_iff.1 h
  exact (kind_of_known hknown hkinds).trans (kind_of_workloadKey? hkey)

theorem seen_eq_none_iff : plan.workloadKey?.bind (known topology done) = none ↔
    ∀ key, plan.workloadKey? = some key → ¬ There topology done key := by
  simp only [Option.bind_eq_none_iff, not_there_iff]

/-- What the answers have told of a node last shows in its status, exactly if its workload has not
vanished. -/
theorem observe_told_iff {namespaceName node : String}
    (hlawful : Gating.Lawful (.workloads topology namespaceName) (NodePlan.groups plans) done)
    (hdelete : ∀ key ∈ Group.keysOf (NodePlan.groups plans),
      ∀ answer, (⟨.delete key, answer⟩ : Exchange) ∉ done)
    (hkinds : ∀ exchange ∈ done, exchange.1.keepsKind exchange.2 = true)
    (hplan : plans.get? node = some plan) :
    NodeStatus.observe plan.workloadType (plan.workloadKey?.bind (known topology done)) =
        .observe plan.workloadType (plan.workloadKey?.bind (told topology done)) ↔
      ∀ key, plan.workloadKey? = some key → ¬ Vanished topology done key := by
  cases hkey : plan.workloadKey? with
  | none => exact iff_of_true rfl nofun
  | some key =>
    simp only [Option.bind_some, Option.some.injEq, forall_eq']
    constructor
    · intro heq hvanished
      obtain ⟨live, hlive⟩ : ∃ live, known topology done key = some live :=
        exists_known_of_vanished hlawful hvanished
      rw [told_eq_none_of_vanished hvanished, hlive] at heq
      refine NodeStatus.observe_ne_missing ?_ heq
      exact (kind_of_known hlive hkinds).trans (kind_of_workloadKey? hkey)
    · intro hstays
      have hsame : told topology done key = known topology done key :=
        told_eq_known hlawful (hdelete key (mem_keysOf_groups hplan hkey)) hstays
      rw [hsame]

/-- **Every status follows the answers**, and is what they have told last unless a replace has found
nothing. -/
theorem status_follows_answers {namespaceName : String} {report : PassReport}
    (hyields : (reconcileWorkloads topology namespaceName plans).Yields done (.ok report)) :
    StatusesFollow topology plans done report := by
  rw [reconcileWorkloads_eq] at hyields
  obtain ⟨result, hpass, hreport⟩ := hyields.of_bind_done
  cases result with
  | error error => cases hreport
  | ok pass =>
    obtain rfl := Except.ok.inj hreport
    have hends : Gating.Ends (.workloads topology namespaceName) _ (.ok pass) done :=
      (Gating.meets_overGroups _ _).post_of_yields hpass
    obtain ⟨htracks, -⟩ := hends pass rfl
    have hlawful := Gating.Lawful.of_yields hpass
    have hobserved : ∀ node plan, plans.get? node = some plan →
        (pass.nodeStatus plans).get? node =
          some (.observe plan.workloadType (plan.workloadKey?.bind (known topology done))) := by
      intro node plan hplan
      have hlive : (fun key => pass.live.get? key) = known topology done := funext htracks.live
      rw [Pass.nodeStatus, SortedMap.get?_map, hplan, hlive]
      rfl
    constructor
    case keys => simp [Pass.nodeStatus, SortedMap.keys, SortedMap.map]
    case observed => exact hobserved
    case type =>
      intro hkinds node plan hplan status hstatus
      obtain rfl := Option.some.inj ((hobserved node plan hplan).symm.trans hstatus)
      exact NodeStatus.workloadType_observe (kind_of_seen hkinds)
    case missing_iff =>
      intro hkinds node plan hplan
      rw [hobserved node plan hplan, Option.some.injEq,
        NodeStatus.observe_eq_missing_iff (kind_of_seen hkinds), seen_eq_none_iff]
    case told_iff =>
      intro hkinds node plan hplan
      rw [hobserved node plan hplan, Option.some.injEq]
      exact observe_told_iff hlawful (fun key => not_deleted_of_planned hpass) hkinds hplan

/-! ## A workload that is deleted meanwhile -/

/-- The Deployment of `r1`, with a label that the live one lacks. -/
def editedPlans : SortedMap String NodePlan :=
  let live := labelled .deployment "lab-r1" "lab"
  let labels := some (.ofList [(Labels.topology, "lab"), ("edited", "yes")])
  .ofList [("r1", ⟨.container, [.free { live with metadata := { live.metadata with labels } }]⟩)]

def runningStore : Store := .ofList [
  (labelled .deployment "lab-r1" "lab").set "status" (.ofMembers [("readyReplicas", .int 1)])]

/-- What is to be replaced is gone. -/
def replaceFindsNone : Call → Option ClusterError
  | .replace _ => some (.notFound "deployments.apps \"lab-r1\" not found")
  | .list _ _ | .get _ | .create _ | .delete _ => none

def vanishingTrace : List (Event Store) × Except PassError PassReport × Store :=
  (reconcileWorkloads "lab" "sim" editedPlans).trace (Server.respond replaceFindsNone) runningStore

/-- The answers have told that the Deployment is gone, and the report says that it is running. -/
theorem vanishing_yields : ∃ report,
    (reconcileWorkloads "lab" "sim" editedPlans).Yields (history vanishingTrace.1) (.ok report) ∧
      (∀ exchange ∈ history vanishingTrace.1, exchange.1.keepsKind exchange.2 = true) ∧
      told "lab" (history vanishingTrace.1) ⟨.deployment, "lab-r1"⟩ = none ∧
      report.nodes.get? "r1" = some ⟨.container, "Running", true, "Deployment is running"⟩ := by
  have hcheck : vanishingTrace.2.1.toOption.any (fun report =>
      report.nodes.get? "r1" = some ⟨.container, "Running", true, "Deployment is running"⟩) =
        true := by decide +kernel
  obtain ⟨report, hyields, hstatus⟩ :=
    Pruning.exists_yields_of_trace replaceFindsNone _ runningStore hcheck
  refine ⟨report, hyields, ?_, ?_, of_decide_eq_true hstatus⟩
  · decide +kernel
  · decide +kernel

/-- The status follows the answers, and is not what they have told last. -/
theorem stale_status_follows_answers : ∃ done report,
    (reconcileWorkloads "lab" "sim" editedPlans).Yields done (.ok report) ∧
      StatusesFollow "lab" editedPlans done report ∧
      told "lab" done ⟨.deployment, "lab-r1"⟩ = none ∧
      report.nodes.get? "r1" = some ⟨.container, "Running", true, "Deployment is running"⟩ := by
  obtain ⟨report, hyields, -, htold, hstatus⟩ := vanishing_yields
  exact ⟨_, report, hyields, status_follows_answers hyields, htold, hstatus⟩

/-- **Not every status is what the answers have told last.** -/
theorem status_not_always_told : ¬ ∀ (topology namespaceName : String)
    (plans : SortedMap String NodePlan) (done : History) (report : PassReport),
    (reconcileWorkloads topology namespaceName plans).Yields done (.ok report) →
    (∀ exchange ∈ done, exchange.1.keepsKind exchange.2 = true) →
    ∀ node plan, plans.get? node = some plan → report.nodes.get? node =
      some (.observe plan.workloadType (plan.workloadKey?.bind (told topology done))) := by
  intro hall
  obtain ⟨report, hyields, hkinds, htold, hstatus⟩ := vanishing_yields
  obtain ⟨plan, hplan, hkey⟩ : ∃ plan, editedPlans.get? "r1" = some plan ∧
      plan.workloadKey? = some ⟨.deployment, "lab-r1"⟩ := ⟨_, rfl, by decide⟩
  have hmissing := hall "lab" "sim" editedPlans _ report hyields hkinds "r1" plan hplan
  rw [hkey, Option.bind_some, htold, hstatus] at hmissing
  have hphase : "Running" = "Missing" := congrArg NodeStatus.phase (Option.some.inj hmissing)
  exact absurd hphase (by decide)

end Statuses

end NetLab
