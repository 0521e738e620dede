import Mathlib.Data.List.Find
import NetLab.Proofs.Cluster.Plain
import NetLab.Proofs.Cluster.Views
import NetLab.Proofs.Reconcile.Rules
import NetLab.Proofs.Render.Keys

/-!
# Nodes do not disturb each other

What a workload pass does about one node depends on nothing but what the cluster answers about the
keys of that node.  The pass shows (`Program.Shows`) what a pass of that node alone does
(`applyAlone`), and all other calls are about other keys.

So if two passes are answered alike about the keys of a node, the calls about these keys are the
same, and so is what is reported about the node (`Isolation.same_about`), whatever happens to the
other nodes: calls about their objects may fail in any way, and their objects may differ from the
start.
-/

namespace NetLab

open Cluster Kube Program

/-- What a pass reports about one node. -/
structure NodeReport where
  created : List Change
  updated : List Change
  errors : List ResourceError
  status : Option NodeStatus
deriving DecidableEq

/-- The error is about an object with one of the keys, or about all objects of the node. -/
def ResourceError.concerns (node : String) (keys : List Key) (error : ResourceError) : Bool :=
  match error with
  | conflict key _ | api key _ _ | nameTaken key _ | dependencyNotReady key _ => key ∈ keys
  | dependencyCycle owner | unsupportedKind owner _ => owner = node

/-- What a report says about a node with the given keys. -/
def PassReport.about (node : String) (keys : List Key) (report : PassReport) : NodeReport where
  created := report.created.filter fun change => change.key ∈ keys
  updated := report.updated.filter fun change => change.key ∈ keys
  errors := report.errors.filter (ResourceError.concerns node keys)
  status := report.nodes.get? node

/-- **Who is concerned with some keys** sees the calls about them, and of a list the objects that
have one of them. -/
def Cluster.View.ofKeys (keys : List Key) : View
  | .list _ _ => some fun answer => answer.map fun items => items.filter (·.key ∈ keys)
  | .get key | .delete key => if key ∈ keys then some id else none
  | .create object | .replace object => if object.key ∈ keys then some id else none

/-- The workload pass of one node alone, without pruning. -/
def applyAlone (topology namespaceName node : String) (plan : NodePlan) :
    Program (Except PassError PassReport) :=
  let scope := Scope.workloads topology namespaceName
  Pass.begin scope fun pass => do
    let pass ← Pass.applyGroup scope (some plan.workloadType) node plan.objects pass
    return { pass.report with nodes := pass.nodeStatus (.ofList [(node, plan)]) }

namespace Isolation

variable {node : String} {keys placed : List Key}

/-- **Two passes that agree about a node.**  The first one has planned the keys `placed`. -/
structure Agree (node : String) (keys placed : List Key) (pass pass' : Pass) : Prop where
  live : ∀ key ∈ keys, pass.live.get? key = pass'.live.get? key
  ready : ∀ key ∈ keys, key ∈ pass.ready ↔ key ∈ pass'.ready
  report : pass.report.about node keys = pass'.report.about node keys
  placed : ∀ key ∈ placed, key ∈ pass.planned

/-! ## Bookkeeping -/

namespace Agree

variable {pass pass' : Pass} {key : Key} {object : Resource} {error : ResourceError}
  {action : Action} {change : Change}

theorem exists? (h : Agree node keys placed pass pass') (hkey : key ∈ keys) :
    pass.exists? key = pass'.exists? key := by
  rw [Bool.eq_iff_iff, Pass.exists?_iff, Pass.exists?_iff, h.live key hkey, h.ready key hkey]

theorem fail (h : Agree node keys placed pass pass') (error : ResourceError) :
    Agree node keys placed (pass.fail error) (pass'.fail error) where
  live := h.live
  ready := h.ready
  report := by
    have hreport := h.report
    simp only [PassReport.about, NodeReport.mk.injEq] at hreport ⊢
    simp [Pass.fail, hreport]
  placed := h.placed

theorem fail_unseen (h : Agree node keys placed pass pass')
    (herror : error.concerns node keys = false) :
    Agree node keys placed (pass.fail error) pass' where
  live := h.live
  ready := h.ready
  report := by
    rw [← h.report]
    simp [Pass.fail, PassReport.about, herror]
  placed := h.placed

/-- A failure about a key that is none of the node. -/
theorem fail_key_unseen (h : Agree node keys placed pass pass') (hkey? : error.key? = some key)
    (hkey : key ∉ keys) : Agree node keys placed (pass.fail error) pass' := by
  refine h.fail_unseen ?_
  cases error with
  | conflict _ _ | api _ _ _ | nameTaken _ _ | dependencyNotReady _ _ =>
    obtain rfl := Option.some.inj hkey?
    exact decide_eq_false hkey
  | dependencyCycle _ | unsupportedKind _ _ => cases hkey?

theorem record (h : Agree node keys placed pass pass') (action : Action) (change : Change) :
    Agree node keys placed (pass.record action change) (pass'.record action change) where
  live := h.live
  ready := h.ready
  report := by
    have hreport := h.report
    simp only [PassReport.about, NodeReport.mk.injEq] at hreport ⊢
    cases action <;> simp [Pass.record, hreport]
  placed := h.placed

theorem record_unseen (h : Agree node keys placed pass pass') (hkey : change.key ∉ keys) :
    Agree node keys placed (pass.record action change) pass' where
  live := h.live
  ready := h.ready
  report := by
    rw [← h.report]
    cases action <;> simp [Pass.record, PassReport.about, hkey]
  placed := h.placed

theorem observe (h : Agree node keys placed pass pass') (key : Key) (object : Resource) :
    Agree node keys placed (pass.observe key object) (pass'.observe key object) where
  live other hother := by
    simp only [Pass.observe, SortedMap.get?_insert_ite, h.live other hother]
  ready := h.ready
  report := h.report
  placed := h.placed

theorem observe_unseen (h : Agree node keys placed pass pass') (hkey : key ∉ keys) :
    Agree node keys placed (pass.observe key object) pass' where
  live other hother := by
    have hne : other ≠ key := fun heq => hkey (heq ▸ hother)
    simp only [Pass.observe, SortedMap.get?_insert_of_ne hne, h.live other hother]
  ready := h.ready
  report := h.report
  placed := h.placed

theorem markReady (h : Agree node keys placed pass pass') (key : Key) :
    Agree node keys placed (pass.markReady key) (pass'.markReady key) where
  live := h.live
  ready other hother := by
    simp only [Pass.markReady, List.mem_cons, h.ready other hother]
  report := h.report
  placed := h.placed

theorem markReady_unseen (h : Agree node keys placed pass pass') (hkey : key ∉ keys) :
    Agree node keys placed (pass.markReady key) pass' where
  live := h.live
  ready other hother := by
    have hne : other ≠ key := fun heq => hkey (heq ▸ hother)
    simp only [Pass.markReady, List.mem_cons, hne, false_or, h.ready other hother]
  report := h.report
  placed := h.placed

theorem plan (h : Agree node keys placed pass pass') (objects : List PlannedObject) :
    Agree node keys (objects.map PlannedObject.key) (pass.plan objects) (pass'.plan objects) where
  live := h.live
  ready := h.ready
  report := h.report
  placed _ hkey := List.mem_append_right _ hkey

theorem plan_unseen (h : Agree node keys placed pass pass') (objects : List PlannedObject) :
    Agree node keys placed (pass.plan objects) pass' where
  live := h.live
  ready := h.ready
  report := h.report
  placed key hkey := List.mem_append_left _ (h.placed key hkey)

end Agree

/-! ## Applying the objects of the node -/

section

variable {scope : Scope} {type? : Option WorkloadType} {pass pass' : Pass} {key : Key}
  {object live : Resource} {planned : PlannedObject} {objects : List PlannedObject}

theorem shows_adopt (h : Agree node keys placed pass pass') (hkey : key ∈ keys) :
    Shows (.ofKeys keys) (Agree node keys placed) (Pass.adopt scope key pass)
      (Pass.adopt scope key pass') := by
  refine .seen (if_pos hkey) fun answer => ?_
  cases answer with
  | error e => exact .done (h.fail _)
  | ok existing =>
    by_cases hown : existing.ownedBy scope.topology = true
    · simp only [id, hown, if_true]
      exact .done ((h.observe key existing).markReady key)
    · simp only [id, hown]
      exact .done (h.fail _)

theorem shows_create (h : Agree node keys placed pass pass') (hkey : object.key ∈ keys) :
    Shows (.ofKeys keys) (Agree node keys placed) (Pass.create scope type? object pass)
      (Pass.create scope type? object pass') := by
  refine .seen (if_pos hkey) fun answer => ?_
  cases answer with
  | ok created => exact .done (((h.record _ _).observe _ created).markReady _)
  | error e =>
    cases e with
    | alreadyExists message => exact shows_adopt h hkey
    | notFound _ | conflict _ | api _ | client => exact .done (h.fail _)

theorem shows_replace (h : Agree node keys placed pass pass') (hkey : object.key ∈ keys) :
    Shows (.ofKeys keys) (Agree node keys placed) (Pass.replace scope type? object live pass)
      (Pass.replace scope type? object live pass') := by
  refine .seen (if_pos (Resource.update_key object live ▸ hkey)) fun answer => ?_
  cases answer with
  | ok replaced => exact .done (((h.record _ _).observe _ replaced).markReady _)
  | error e =>
    cases e with
    | conflict message => exact .done (h.fail _)
    | notFound _ | alreadyExists _ | api _ | client => exact .done (h.fail _)

/-- **An object of the node** is applied in the same way in both. -/
theorem shows_applyObject (h : Agree node keys placed pass pass') (hkey : planned.key ∈ keys)
    (hclosed : ∀ key ∈ planned.dependencies, key ∈ keys) :
    Shows (.ofKeys keys) (Agree node keys placed) (Pass.applyObject scope type? planned pass)
      (Pass.applyObject scope type? planned pass') := by
  -- Both find the same dependency missing, if any, and go by the same live object.
  have hdeps : (planned.dependencies.find? fun dependency => !pass.exists? dependency) =
      planned.dependencies.find? fun dependency => !pass'.exists? dependency :=
    List.find?_congr fun key hkey => by rw [h.exists? (hclosed key hkey)]
  unfold Pass.applyObject
  rw [hdeps, h.live _ hkey]
  split
  · exact .done (h.fail _)
  · split
    · exact shows_create h hkey
    · split
      · exact shows_replace h hkey
      · exact .done (h.markReady _)

theorem shows_applyGroup (h : Agree node (objects.map PlannedObject.key) placed pass pass')
    (hclosed : ∀ planned ∈ objects, ∀ key ∈ planned.dependencies,
      key ∈ objects.map PlannedObject.key) :
    Shows (.ofKeys (objects.map PlannedObject.key))
      (Agree node (objects.map PlannedObject.key) (objects.map PlannedObject.key))
      (Pass.applyGroup scope type? node objects pass)
      (Pass.applyGroup scope type? node objects pass') := by
  have hplan := h.plan objects
  unfold Pass.applyGroup
  dsimp only
  split
  · exact .done (hplan.fail _)
  · split
    · exact .done (hplan.fail _)
    · rename_i order horder
      refine .forEach (fun planned hmem _ _ hagree => ?_) hplan
      have hmem := (PlannedObject.perm_of_applyOrder? horder).mem_iff.1 hmem
      exact shows_applyObject hagree (List.mem_map_of_mem hmem) (hclosed planned hmem)

/-! ## What is done for others -/

theorem shows_adopt_unseen (h : Agree node keys placed pass pass') (hkey : key ∉ keys) :
    Shows (.ofKeys keys) (Agree node keys placed) (Pass.adopt scope key pass) (.done pass') := by
  refine .unseen (if_neg hkey) fun answer => ?_
  cases answer with
  | error e => exact .done (h.fail_key_unseen rfl hkey)
  | ok existing =>
    by_cases hown : existing.ownedBy scope.topology = true
    · simp only [hown, if_true]
      exact .done ((h.observe_unseen hkey).markReady_unseen hkey)
    · simp only [hown]
      exact .done (h.fail_key_unseen rfl hkey)

theorem shows_create_unseen (h : Agree node keys placed pass pass') (hkey : object.key ∉ keys) :
    Shows (.ofKeys keys) (Agree node keys placed) (Pass.create scope type? object pass)
      (.done pass') := by
  refine .unseen (if_neg hkey) fun answer => ?_
  cases answer with
  | ok created =>
    exact .done (((h.record_unseen hkey).observe_unseen hkey).markReady_unseen hkey)
  | error e =>
    cases e with
    | alreadyExists message => exact shows_adopt_unseen h hkey
    | notFound _ | conflict _ | api _ | client =>
      exact .done (h.fail_key_unseen rfl hkey)

theorem shows_replace_unseen (h : Agree node keys placed pass pass') (hkey : object.key ∉ keys) :
    Shows (.ofKeys keys) (Agree node keys placed) (Pass.replace scope type? object live pass)
      (.done pass') := by
  refine .unseen (if_neg (by rwa [Resource.update_key])) fun answer => ?_
  cases answer with
  | ok replaced =>
    exact .done (((h.record_unseen hkey).observe_unseen hkey).markReady_unseen hkey)
  | error e =>
    cases e with
    | conflict message =>
      exact .done (h.fail_key_unseen rfl hkey)
    | notFound _ | alreadyExists _ | api _ | client =>
      exact .done (h.fail_key_unseen rfl hkey)

theorem shows_applyObject_unseen (h : Agree node keys placed pass pass')
    (hkey : planned.key ∉ keys) :
    Shows (.ofKeys keys) (Agree node keys placed) (Pass.applyObject scope type? planned pass)
      (.done pass') := by
  unfold Pass.applyObject
  split
  · exact .done (h.fail_key_unseen rfl hkey)
  · split
    · exact shows_create_unseen h hkey
    · split
      · exact shows_replace_unseen h hkey
      · exact .done (h.markReady_unseen hkey)

/-- **The objects of another node** are applied without a call that the node is concerned with. -/
theorem shows_applyGroup_unseen {owner : String} (h : Agree node keys placed pass pass')
    (howner : owner ≠ node) (hkeys : ∀ planned ∈ objects, planned.key ∉ keys) :
    Shows (.ofKeys keys) (Agree node keys placed) (Pass.applyGroup scope type? owner objects pass)
      (.done pass') := by
  have hplan := h.plan_unseen objects
  unfold Pass.applyGroup
  dsimp only
  split
  · exact .done (hplan.fail_unseen (decide_eq_false howner))
  · split
    · exact .done (hplan.fail_unseen (decide_eq_false howner))
    · rename_i order horder
      refine .forEach_unseen (fun planned hmem _ hagree => ?_) hplan
      exact shows_applyObject_unseen hagree
        (hkeys planned ((PlannedObject.perm_of_applyOrder? horder).mem_iff.1 hmem))

/-- What is deleted was not planned, so it is nothing of the node. -/
theorem shows_prune_unseen (h : Agree node keys keys pass pass') :
    Shows (.ofKeys keys) (Agree node keys keys) (Pass.prune scope pass) (.done pass') := by
  refine .forEach_unseen (fun entry hmem other hagree => ?_) h
  have hkey : entry.1 ∉ keys := fun hkey => (Pass.mem_unwanted.1 hmem).2 (h.placed _ hkey)
  refine .unseen (if_neg hkey) fun answer => ?_
  cases answer with
  | ok _ => exact .done (hagree.record_unseen hkey)
  | error e =>
    cases e with
    | notFound message => exact .done (hagree.record_unseen hkey)
    | alreadyExists _ | conflict _ | api _ | client =>
      exact .done (hagree.fail_key_unseen rfl hkey)

end

/-! ## Whole passes -/

/-- Both come out well, with related values, or both fail in the same way. -/
def SameOutcome {α β : Type} (related : α → β → Prop) :
    Except PassError α → Except PassError β → Prop
  | .ok value, .ok other => related value other
  | .error error, .error error' => error = error'
  | .ok _, .error _ | .error _, .ok _ => False

theorem SameOutcome.map_eq {α β γ : Type} {f : α → γ} {g : β → γ} {result : Except PassError α}
    {other : Except PassError β}
    (h : SameOutcome (fun value other => f value = g other) result other) :
    result.map f = other.map g := by
  cases result <;> cases other <;> first | exact congrArg _ h | exact h.elim

/-- The two snapshots agree about some keys. -/
def AgreeLive (keys : List Key) (live live' : SortedMap Key Resource) : Prop :=
  ∀ key ∈ keys, live.get? key = live'.get? key

/-- Of the listed objects those with the given keys are enough to know what is live under them. -/
theorem agree_addOwned {topology : String} {live live' : SortedMap Key Resource}
    (h : AgreeLive keys live live') (items : List Resource) :
    AgreeLive keys (Pass.addOwned topology live items)
      (Pass.addOwned topology live' (items.filter (·.key ∈ keys))) := by
  unfold Pass.addOwned
  induction items generalizing live live' with
  | nil => exact h
  | cons item rest ih =>
    have hinsert : AgreeLive keys (live.insert item.key item) (live'.insert item.key item) := by
      intro key hkey
      simp only [SortedMap.get?_insert_ite, h key hkey]
    have hskip (hother : item.key ∉ keys) : AgreeLive keys (live.insert item.key item) live' := by
      intro key hkey
      have hne : key ≠ item.key := fun heq => hother (heq ▸ hkey)
      simp only [SortedMap.get?_insert_of_ne hne, h key hkey]
    by_cases hown : item.ownedBy topology = true <;> by_cases hkey : item.key ∈ keys
    · simpa [List.filter_cons, hown, hkey] using ih hinsert
    · simpa [List.filter_cons, hown, hkey] using ih (hskip hkey)
    · simpa [List.filter_cons, hown, hkey] using ih h
    · simpa [List.filter_cons, hown, hkey] using ih h

theorem shows_snapshot {topology : String} : ∀ (kinds : List Kind)
    {live live' : SortedMap Key Resource}, AgreeLive keys live live' →
      Shows (.ofKeys keys) (SameOutcome (AgreeLive keys)) (Pass.snapshot topology live kinds)
        (Pass.snapshot topology live' kinds)
  | [], _, _, h => .done h
  | kind :: rest, _, _, h => by
    refine .seen rfl fun answer => ?_
    cases answer with
    | ok items => exact shows_snapshot rest (agree_addOwned h items)
    | error e =>
      cases e with
      | notFound message =>
        by_cases hkind : kind = .virtualMachine
        · subst hkind
          exact shows_snapshot rest h
        · simp only [Except.map, hkind, if_false]
          exact .done rfl
      | alreadyExists _ | conflict _ | api _ | client => exact .done rfl

/-- A pass shows another one from its snapshot on. -/
theorem shows_begin {α β : Type} {scope : Scope} {related : α → β → Prop} {next : Pass → Program α}
    {next' : Pass → Program β}
    (h : ∀ live live', AgreeLive keys live live' →
      Shows (.ofKeys keys) related (next (Pass.start live)) (next' (Pass.start live'))) :
    Shows (.ofKeys keys) (SameOutcome related) (Pass.begin scope next)
      (Pass.begin scope next') := by
  refine (shows_snapshot scope.kinds fun _ _ => rfl).bind fun result result' hagree => ?_
  cases result with
  | ok live =>
    cases result' with
    | ok live' => exact (h live live' hagree).bind fun _ _ hrelated => .done hrelated
    | error error => exact hagree.elim
  | error error =>
    cases result' with
    | ok live' => exact hagree.elim
    | error error' => exact .done hagree

theorem workloadKey?_mem {plan : NodePlan} {key : Key} (h : plan.workloadKey? = some key) :
    key ∈ plan.keys := by
  obtain ⟨object, hobject, rfl⟩ := Option.map_eq_some_iff.1 h
  obtain ⟨planned, hmem, rfl⟩ := List.mem_map.1 (List.mem_of_find?_eq_some hobject)
  exact List.mem_map_of_mem hmem

/-- Passes that agree about a node see it in the same state. -/
theorem Agree.status {pass pass' : Pass} {plan : NodePlan}
    {plans plans' : SortedMap String NodePlan}
    (h : Agree node plan.keys placed pass pass') (hplan : plans.get? node = some plan)
    (hplan' : plans'.get? node = some plan) :
    (pass.nodeStatus plans).get? node = (pass'.nodeStatus plans').get? node := by
  have hlive : (plan.workloadKey?.bind fun key => pass.live.get? key) =
      plan.workloadKey?.bind fun key => pass'.live.get? key := by
    cases hkey : plan.workloadKey? with
    | none => rfl
    | some key => exact h.live key (workloadKey?_mem hkey)
  simp only [Pass.nodeStatus, SortedMap.get?_map, hplan, hplan', Option.map_some, hlive]

/-- As all keys are distinct, no other node has a key of this one. -/
theorem keys_of_others {plans : SortedMap String NodePlan} {plan : NodePlan}
    {before later : List (String × NodePlan)}
    (hsplit : plans.entries = before ++ (node, plan) :: later)
    (hdistinct : ((NodePlan.allObjects plans).map PlannedObject.key).Nodup) :
    ∀ entry ∈ before ++ later,
      entry.1 ≠ node ∧ ∀ planned ∈ entry.2.objects, planned.key ∉ plan.keys := by
  have hperm : plans.entries.Perm ((node, plan) :: (before ++ later)) :=
    hsplit ▸ List.perm_middle
  have hnames : (((node, plan) :: (before ++ later)).map Prod.fst).Nodup :=
    (hperm.map Prod.fst).nodup_iff.1 plans.nodup_keys
  intro entry hentry
  have hname : entry.1 ≠ node := by
    rintro rfl
    exact (List.nodup_cons.1 hnames).1 (List.mem_map.2 ⟨entry, hentry, rfl⟩)
  refine ⟨hname, fun planned hplanned => ?_⟩
  exact (NodePlan.nodup_keys_iff.1 hdistinct).2 entry
    (hperm.mem_iff.2 (List.mem_cons_of_mem _ hentry)) _ (hperm.mem_iff.2 List.mem_cons_self) hname _
    (List.mem_map_of_mem hplanned)

section

variable {topology namespaceName : String} {plans : SortedMap String NodePlan} {plan : NodePlan}
  (hplan : plans.get? node = some plan)
  (hdistinct : ((NodePlan.allObjects plans).map PlannedObject.key).Nodup)
  (hclosed : ∀ planned ∈ plan.objects, ∀ key ∈ planned.dependencies, key ∈ plan.keys)

include hplan hdistinct hclosed

/-- **A workload pass shows** to those concerned with a node what the pass of that node alone
does. -/
theorem shows_reconcileWorkloads :
    Shows (.ofKeys plan.keys)
      (SameOutcome fun report report' : PassReport =>
        report.about node plan.keys = report'.about node plan.keys)
      (reconcileWorkloads topology namespaceName plans)
      (applyAlone topology namespaceName node plan) := by
  obtain ⟨before, later, hsplit⟩ := List.append_of_mem (SortedMap.get?_eq_some_iff.1 hplan)
  have hothers := keys_of_others hsplit hdistinct
  obtain ⟨hbefore, hlater⟩ := List.forall_mem_append.1 hothers
  unfold reconcileWorkloads applyAlone
  refine shows_begin fun live live' hlive => ?_
  have hstart : Agree node plan.keys [] (Pass.start live) (Pass.start live') :=
    ⟨hlive, fun _ _ => Iff.rfl, rfl, fun _ hkey => nomatch hkey⟩
  -- The keys of the node are planned once its turn has come; from then on none of them is pruned.
  have hgroups : Shows (.ofKeys plan.keys) (Agree node plan.keys plan.keys)
      (forEach (fun entry : String × NodePlan =>
        Pass.applyGroup (Scope.workloads topology namespaceName) (some entry.2.workloadType)
          entry.1 entry.2.objects) plans.entries (Pass.start live))
      (Pass.applyGroup (Scope.workloads topology namespaceName) (some plan.workloadType) node
        plan.objects (Pass.start live')) := by
    rw [hsplit]
    refine .forEach_one (q := Pass.applyGroup _ _ node plan.objects)
      (fun entry hentry pass pass' hagree => ?_) (fun pass pass' hagree => ?_)
      (fun entry hentry pass pass' hagree => ?_) hstart
    · exact shows_applyGroup_unseen hagree (hbefore entry hentry).1 (hbefore entry hentry).2
    · exact shows_applyGroup hagree hclosed
    · exact shows_applyGroup_unseen hagree (hlater entry hentry).1 (hlater entry hentry).2
  refine hgroups.bind fun pass pass' hagree => ?_
  refine (shows_prune_unseen hagree).bind_unseen fun pass hagree => .done ?_
  have hstatus := hagree.status hplan
    (show (SortedMap.ofList [(node, plan)]).get? node = some plan by simp)
  have hreport := hagree.report
  simp only [PassReport.about, NodeReport.mk.injEq] at hreport ⊢
  exact ⟨hreport.1, hreport.2.1, hreport.2.2.1, hstatus⟩

/-- **Nodes do not disturb each other.**  Two workload passes run to their end.  If they are
answered alike as far as the keys of a node are concerned, they make the same calls about these
keys, with the same objects, and report the same about the node, whatever the cluster has answered
about others. -/
theorem same_about {σ τ : Type} {answers : Answering σ} {answers' : Answering τ} {s t : σ}
    {s' t' : τ} {events : List (Event σ)} {events' : List (Event τ)}
    {result result' : Except PassError PassReport}
    (hreach : (reconcileWorkloads topology namespaceName plans).Reaches answers s events
      (.done result) t)
    (hreach' : (reconcileWorkloads topology namespaceName plans).Reaches answers' s' events'
      (.done result') t')
    (halike : AnsweredAlike ((View.ofKeys plan.keys).seen events)
      ((View.ofKeys plan.keys).seen events')) :
    (View.ofKeys plan.keys).seen events = (View.ofKeys plan.keys).seen events' ∧
      result.map (PassReport.about node plan.keys) =
        result'.map (PassReport.about node plan.keys) := by
  have hshows := @shows_reconcileWorkloads node topology namespaceName plans plan hplan hdistinct
    hclosed
  obtain ⟨alone, hyields, houtcome⟩ := hshows.yields hreach
  obtain ⟨alone', hyields', houtcome'⟩ := hshows.yields hreach'
  obtain ⟨hseen, rfl⟩ := hyields.unique hyields' halike
  refine ⟨hseen, ?_⟩
  rw [houtcome.map_eq, houtcome'.map_eq]

end

/-! Of two nodes, the first one is created in one run and not in the other. -/

def twoNodes : Topology := oneNode.withNode "r2" (.ofImage "router" "frr")

/-- The Deployment of the first node is refused. -/
def refuseFirst : Call → Option ClusterError
  | .create object => if object.key = ⟨.deployment, "lab-r1"⟩ then some .client else none
  | _ => none

/-- The pass for the two nodes, to its end. -/
def twoNodesTrace (rendered : SortedMap String RenderedNode)
    (refusal? : Call → Option ClusterError) : List (Event Store) × Except PassError PassReport × Store :=
  (reconcileWorkloads "lab" "lab" (rendered.map fun _ node => node.plan)).trace
    (Server.respond refusal?) ∅

/-- What is seen of `r2` in a run without failures and in one where `r1` is refused. -/
theorem twoNodes_runs : ∃ rendered plan report report',
    twoNodes.render .bare "lab" = .ok rendered ∧
      (rendered.map fun _ node => node.plan).get? "r2" = some plan ∧
      ((NodePlan.allObjects (rendered.map fun _ node => node.plan)).map PlannedObject.key).Nodup ∧
      (∀ planned ∈ plan.objects, ∀ key ∈ planned.dependencies, key ∈ plan.keys) ∧
      (twoNodesTrace rendered fun _ => none).2.1 = .ok report ∧
      (twoNodesTrace rendered refuseFirst).2.1 = .ok report' ∧
      report'.isClean = false ∧ (report'.about "r2" plan.keys).created.map Change.key = plan.keys ∧
      (View.ofKeys plan.keys).seen (twoNodesTrace rendered fun _ => none).1 =
        (View.ofKeys plan.keys).seen (twoNodesTrace rendered refuseFirst).1 := by
  have hcheck : ((twoNodes.render .bare "lab").toOption.any fun rendered =>
      ((rendered.map fun _ node => node.plan).get? "r2").any fun plan =>
        (twoNodesTrace rendered fun _ => none).2.1.toOption.any fun _ =>
          (twoNodesTrace rendered refuseFirst).2.1.toOption.any fun report' => decide
            (((NodePlan.allObjects (rendered.map fun _ node => node.plan)).map
                PlannedObject.key).Nodup ∧
              (∀ planned ∈ plan.objects, ∀ key ∈ planned.dependencies, key ∈ plan.keys) ∧
              report'.isClean = false ∧
              (report'.about "r2" plan.keys).created.map Change.key = plan.keys ∧
              (View.ofKeys plan.keys).seen (twoNodesTrace rendered fun _ => none).1 =
                (View.ofKeys plan.keys).seen (twoNodesTrace rendered refuseFirst).1)) = true := by
    decide +kernel
  obtain ⟨rendered, hrender, hcheck⟩ := exists_ok_of_any hcheck
  obtain ⟨plan, hplan, hcheck⟩ := (Option.any_eq_true _ _).1 hcheck
  obtain ⟨report, hresult, hcheck⟩ := exists_ok_of_any hcheck
  obtain ⟨report', hresult', hcheck⟩ := exists_ok_of_any hcheck
  obtain ⟨hdistinct, hclosed, hfailed, hcreated, hseen⟩ := of_decide_eq_true hcheck
  exact ⟨rendered, plan, report, report', hrender, hplan, hdistinct, hclosed, hresult, hresult',
    hfailed, hcreated, hseen⟩

/-- The node `r2` is created and reported in the same way whether or not `r1` can be created. -/
theorem twoNodes_isolated : ∃ rendered plan events events' report report' t t',
    twoNodes.render .bare "lab" = .ok rendered ∧
      (rendered.map fun _ node => node.plan).get? "r2" = some plan ∧
      (reconcileWorkloads "lab" "lab" (rendered.map fun _ node => node.plan)).Reaches
        (Server.plain fun _ call error => (fun _ => none) call = some error).Answers ∅ events
        (.done (.ok report)) t ∧
      (reconcileWorkloads "lab" "lab" (rendered.map fun _ node => node.plan)).Reaches
        (Server.plain fun _ call error => refuseFirst call = some error).Answers ∅ events'
        (.done (.ok report')) t' ∧
      report'.isClean = false ∧ (report'.about "r2" plan.keys).created.map Change.key = plan.keys ∧
      (View.ofKeys plan.keys).seen events = (View.ofKeys plan.keys).seen events' ∧
      report.about "r2" plan.keys = report'.about "r2" plan.keys := by
  obtain ⟨rendered, plan, report, report', hrender, hplan, hdistinct, hclosed, hresult, hresult',
    hfailed, hcreated, hseen⟩ := twoNodes_runs
  have hreach := reaches_trace (Server.answers_respond fun _ => none)
    (reconcileWorkloads "lab" "lab" (rendered.map fun _ node => node.plan)) ∅
  have hreach' := reaches_trace (Server.answers_respond refuseFirst)
    (reconcileWorkloads "lab" "lab" (rendered.map fun _ node => node.plan)) ∅
  rw [← twoNodesTrace, hresult] at hreach
  rw [← twoNodesTrace, hresult'] at hreach'
  obtain ⟨hsame, habout⟩ := same_about hplan hdistinct hclosed hreach hreach'
    (hseen ▸ answeredAlike_refl _)
  exact ⟨rendered, plan, _, _, report, report', _, _, hrender, hplan, hreach, hreach', hfailed,
    hcreated, hsame, Except.ok.inj habout⟩

end Isolation

end NetLab
