import NetLab.Proofs.Cluster.Plain
import NetLab.Proofs.Reconcile.Phases
import NetLab.Proofs.Render.Identity
import NetLab.Proofs.Render.Keys
import NetLab.Proofs.Render.Mounts

/-!
# Nodes that run twice

A node runs twice while a Deployment and a VirtualMachine of it are in the cluster together
(`Rivals`).  Within one render no node has both.  But a pass writes what is planned before it
deletes what is not, so when a node has changed from the one type to the other, the new workload is
written while the old one is still there.

`runsOnce_iff` says that this is all: over any passes for successive versions of a topology, from an
empty namespace and whatever calls fail, no node ever runs twice exactly if no pass puts a workload
into the cluster of a node that ran as the other type when the pass began (`PassRun.ChangesNoType`).
A pass can do so (`runs_twice`).
-/

namespace NetLab

open Cluster Kube Program

/-! ## Workloads of one node -/

/-- **Two workloads that run one node**, the one as a container and the other as a machine. -/
def Rivals (a b : Resource) : Prop :=
  a.runsNode = true ∧ b.runsNode = true ∧ a.kind ≠ b.kind ∧
    (∃ topology, a.label? Labels.topology = some topology ∧
      b.label? Labels.topology = some topology) ∧
    ∃ node, a.label? Labels.node = some node ∧ b.label? Labels.node = some node

theorem Rivals.symm {a b : Resource} (h : Rivals a b) : Rivals b a := by
  obtain ⟨ha, hb, hkind, ⟨topology, ht, ht'⟩, node, hn, hn'⟩ := h
  exact ⟨hb, ha, hkind.symm, ⟨topology, ht', ht⟩, node, hn', hn⟩

instance (a b : Resource) : Decidable (Rivals a b) :=
  decidable_of_iff (a.runsNode = true ∧ b.runsNode = true ∧ a.kind ≠ b.kind ∧
      ((a.label? Labels.topology).isSome ∧ a.label? Labels.topology = b.label? Labels.topology) ∧
      (a.label? Labels.node).isSome ∧ a.label? Labels.node = b.label? Labels.node) <| by
    have hboth (x y : Option String) : (x.isSome ∧ x = y) ↔ ∃ value, x = some value ∧
        y = some value := by
      cases x <;> simp [eq_comm]
    rw [hboth, hboth, Rivals]

/-- **No node runs twice.** -/
def RunsOnce (s : Store) : Prop := ∀ a ∈ s, ∀ b ∈ s, ¬ Rivals a b

instance (s : Store) : Decidable (RunsOnce s) :=
  decidable_of_iff (∀ a ∈ s.objects.values, ∀ b ∈ s.objects.values, ¬ Rivals a b) <| by
    simp only [RunsOnce, Store.mem_values_iff]

/-- One pass: the store that it found, and what it did. -/
structure PassRun where
  found : Store
  events : List (Event Store)

/-- Whatever the pass puts into the store is no rival of what it found there. -/
def PassRun.ChangesNoType (run : PassRun) : Prop :=
  ∀ event ∈ run.events, ∀ object ∈ event.after, object ∉ run.found →
    ∀ former ∈ run.found, ¬ Rivals object former

/-- **Passes for successive versions of a topology** in a namespace that was empty at first.  Any
calls may fail, and any pass may be cut off. -/
inductive Versions (server : Server) (name namespaceName : String) : List PassRun → Store → Prop
    where
  | start : Versions server name namespaceName [] ∅
  | pass {runs : List PassRun} {s u : Store} {t : Topology} {c : Classifier}
      {rendered : SortedMap String RenderedNode} {events : List (Event Store)}
      {q : Program (Except PassError PassReport)}
      (earlier : Versions server name namespaceName runs s) (hname : t.name = name)
      (hrender : t.render c namespaceName = .ok rendered)
      (hreach : (reconcileWorkloads name namespaceName
        (rendered.map fun _ node => node.plan)).Reaches server.Attempts s events q u) :
      Versions server name namespaceName (runs ++ [⟨s, events⟩]) u

namespace Singleness

/-- The object runs a rendered node. -/
structure Runs (t : Topology) (entry : String × RenderedNode) (object : Resource) : Prop where
  kind : object.kind = entry.2.classification.workloadType.kind
  name : object.name = t.workloadName entry.1
  topology : object.label? Labels.topology = some t.name
  node : object.label? Labels.node = some entry.1

/-- What runs a node is named after it. -/
def Named (topology : String) (s : Store) : Prop :=
  ∀ object ∈ s, object.runsNode = true → ∀ node, object.label? Labels.node = some node →
    object.name = DnsLabel.ofParts [topology, node]

section Pass

variable {server : Server} {t : Topology} {c : Classifier} {namespaceName : String}
  {rendered : SortedMap String RenderedNode} {s u : Store} {events : List (Event Store)}
  {q : Program (Except PassError PassReport)}

/-- A planned object that runs a node runs one of the rendered nodes. -/
theorem runs_of_planned (hrender : t.render c namespaceName = .ok rendered) {p : PlannedObject}
    (hmem : p ∈ NodePlan.allObjects (rendered.map fun _ node => node.plan))
    (hruns : p.object.runsNode = true) : ∃ entry ∈ rendered.entries, Runs t entry p.object := by
  obtain ⟨_, hplan, hp⟩ := List.mem_flatMap.1 hmem
  obtain ⟨entry, hentry, rfl⟩ := List.mem_map.1 hplan
  obtain ⟨definition, bundle?, -, -, hrendered⟩ :=
    Topology.isRendered_of_render hrender entry hentry
  have hidentified := t.identified_context c namespaceName entry.1 definition
  rw [hrendered] at hp
  refine ⟨entry, hentry, ?_⟩
  rcases NodeContext.mem_objects _ _ _ hp with ⟨bundle, -, rfl⟩ | rfl | rfl
  · cases hruns
  · have hlabel (name : String) (ctx : NodeContext) :
        (ctx.workload t.native.vmDefaults bundle?).label? name = ctx.labels.get? name := by
      rw [Resource.label?, NodeContext.workload_metadata]
      rfl
    refine ⟨?_, ?_, ?_, ?_⟩
    · rw [NodeContext.workload_kind, hrendered]
    · rw [Resource.name, NodeContext.workload_metadata]
      rfl
    · rw [hlabel, NodeContext.label?_topology, hidentified.topology]
      rfl
    · rw [hlabel, NodeContext.label?_node, hidentified.node]
      exact congrArg some (t.nodeConfig_name entry.1 definition)
  · cases hruns

/-- Two workloads of one node that are rendered together are of one kind. -/
theorem Runs.kind_eq {a b : Resource} {entry other : String × RenderedNode}
    (hentry : entry ∈ rendered.entries) (hother : other ∈ rendered.entries) (ha : Runs t entry a)
    (hb : Runs t other b) (hnode : entry.1 = other.1) : a.kind = b.kind := by
  obtain rfl := List.inj_on_of_nodup_map rendered.nodup_keys hentry hother hnode
  rw [ha.kind, hb.kind]

variable (hrender : t.render c namespaceName = .ok rendered)
  (hnode : ∀ {sent stored}, server.stores sent stored →
    stored.label? Labels.node = sent.label? Labels.node)

include hrender hnode

/-- What a pass has written and runs a node, runs one of the rendered nodes. -/
theorem runs_of_stores {sent stored : Resource}
    (hwrites : PlannedObject.Writes
      (NodePlan.allObjects (rendered.map fun _ node => node.plan)) sent)
    (hstores : server.stores sent stored) (hruns : stored.runsNode = true) :
    ∃ entry ∈ rendered.entries, Runs t entry stored := by
  obtain ⟨p, hmem, hkey, hlabels⟩ := hwrites.exists_planned
  have hkey : stored.key = p.object.key := (server.key_of_stores hstores).trans hkey
  have hkind : stored.kind = p.object.kind := congrArg Key.kind hkey
  rw [Resource.runsNode, hkind] at hruns
  obtain ⟨entry, hentry, hp⟩ := runs_of_planned hrender hmem hruns
  refine ⟨entry, hentry, hkind.trans hp.kind, (congrArg Key.name hkey).trans hp.name, ?_, ?_⟩
  · rw [server.owner_of_stores hstores, hlabels, hp.topology]
  · rw [hnode hstores, hlabels, hp.node]

variable (hreach : (reconcileWorkloads t.name namespaceName
  (rendered.map fun _ node => node.plan)).Reaches server.Attempts s events q u)

include hreach

/-- **What a pass leaves in the store** and has not found there, if it runs a node: one of its calls
wrote it, as what runs a rendered node, before the pass deleted anything. -/
theorem exists_written {object : Resource} (hobject : object ∈ u) (hnew : object ∉ s)
    (hruns : object.runsNode = true) :
    ∃ entry ∈ rendered.entries, Runs t entry object ∧
      ∃ before event later, events = before ++ event :: later ∧ object ∈ event.after ∧
        ∀ earlier ∈ before ++ [event], earlier.call.deletes = false := by
  obtain ⟨before, event, later, rfl, hafter, sent, hsends, hstores⟩ :=
    (hreach.written hobject).resolve_left hnew
  obtain ⟨hwrites, hnone⟩ :=
    Phases.sends_before_delete Phases.meets_reconcileWorkloads hreach hsends
  obtain ⟨entry, hentry, hentry'⟩ := runs_of_stores hrender hnode hwrites hstores hruns
  refine ⟨entry, hentry, hentry', before, event, later, rfl, hafter, ?_⟩
  refine List.forall_mem_append.2 ⟨hnone, List.forall_mem_singleton.2 ?_⟩
  cases hcall : event.call with
  | list _ _ | get _ | create _ | replace _ => rfl
  | delete _ =>
    rw [hcall] at hsends
    exact hsends.elim

/-- **A pass that changes no type** leaves no node that runs twice, if it found none. -/
theorem runsOnce_of_changesNoType (hs : RunsOnce s)
    (hchanges : PassRun.ChangesNoType ⟨s, events⟩) : RunsOnce u := by
  have hnew {a b : Resource} (ha : a ∈ u) (hfresh : a ∉ s) (hb : b ∈ s) : ¬ Rivals a b := by
    intro hrivals
    obtain ⟨entry, -, -, before, event, later, rfl, hafter, -⟩ :=
      exists_written hrender hnode hreach ha hfresh hrivals.1
    exact hchanges event (List.mem_append_right _ List.mem_cons_self) a hafter hfresh b hb hrivals
  intro a ha b hb hrivals
  by_cases holdA : a ∈ s
  · by_cases holdB : b ∈ s
    · exact hs a holdA b holdB hrivals
    · exact hnew hb holdB holdA hrivals.symm
  · by_cases holdB : b ∈ s
    · exact hnew ha holdA holdB hrivals
    · -- Both were written, so both run the one node that has this name.
      obtain ⟨hruns, hruns', hkind, -, node, hlabel, hlabel'⟩ := hrivals
      obtain ⟨entry, hentry, hfirst, -⟩ := exists_written hrender hnode hreach ha holdA hruns
      obtain ⟨other, hother, hsecond, -⟩ := exists_written hrender hnode hreach hb holdB hruns'
      refine hkind (hfirst.kind_eq hentry hother hsecond (Option.some.inj ?_))
      rw [← hfirst.node, ← hsecond.node, hlabel, hlabel']

/-- What runs a node keeps being named after it. -/
theorem named_of_reaches (hs : Named t.name s) : Named t.name u := by
  intro object hobject hruns node hlabel
  by_cases hold : object ∈ s
  · exact hs object hold hruns node hlabel
  · obtain ⟨entry, -, hentry, -⟩ := exists_written hrender hnode hreach hobject hold hruns
    obtain rfl : entry.1 = node := Option.some.inj (hentry.node.symm.trans hlabel)
    exact hentry.name

/-- **A pass that changes a type runs the node twice**: when it writes the new workload, the old one
is still there.  It cannot have been replaced, as nothing else that is planned has its name. -/
theorem exists_both (hs : Named t.name s) {a b : Resource} (ha : a ∈ u) (hnew : a ∉ s) (hb : b ∈ s)
    (hrivals : Rivals a b) : ∃ event ∈ events, a ∈ event.after ∧ b ∈ event.after := by
  obtain ⟨hruns, hruns', hkind, -, node, hlabel, hlabel'⟩ := hrivals
  obtain ⟨entry, hentry, hentry', before, event, later, rfl, hafter, hnone⟩ :=
    exists_written hrender hnode hreach ha hnew hruns
  obtain rfl : entry.1 = node := Option.some.inj (hentry'.node.symm.trans hlabel)
  obtain ⟨r, hprefix⟩ := hreach.at_event
  refine ⟨event, List.mem_append_right _ List.mem_cons_self, hafter, hprefix.stays hb ?_⟩
  intro earlier hmem hdestroys
  obtain ⟨first, rest, hsplit⟩ := List.append_of_mem hmem
  rw [hsplit] at hprefix
  cases hcall : earlier.call with
  | list _ _ | get _ | create _ =>
    rw [hcall] at hdestroys
    exact hdestroys.elim
  | delete _ =>
    have hdeletes := hnone earlier hmem
    rw [hcall] at hdeletes
    cases hdeletes
  | replace sent =>
    have hsent : sent.key = b.key := by
      rw [hcall] at hdestroys
      exact hdestroys
    have hsends : earlier.call.Sends sent := by
      rw [hcall]
      rfl
    obtain ⟨hwrites, -⟩ :=
      Phases.sends_before_delete Phases.meets_reconcileWorkloads hprefix hsends
    obtain ⟨p, hp, hkey, -⟩ := hwrites.exists_planned
    have hkey : p.object.key = b.key := hkey.symm.trans hsent
    have hkindB : p.object.kind = b.kind := congrArg Key.kind hkey
    obtain ⟨other, hother, hother'⟩ :=
      runs_of_planned hrender hp (by rwa [Resource.runsNode, hkindB])
    have hname : t.workloadName other.1 = t.workloadName entry.1 :=
      (hother'.name.symm.trans (congrArg Key.name hkey)).trans (hs b hb hruns' _ hlabel')
    obtain rfl := Topology.workloadName_inj hrender hother hentry hname
    exact hkind (hentry'.kind.trans (hother'.kind.symm.trans hkindB))

end Pass

/-! ## Successive versions -/

section Versions

variable {server : Server} {name namespaceName : String} {runs : List PassRun} {s : Store}
  (hnode : ∀ {sent stored}, server.stores sent stored →
    stored.label? Labels.node = sent.label? Labels.node)
  (h : Versions server name namespaceName runs s)

include hnode h

theorem named_of_versions : Named name s := by
  induction h with
  | start => exact fun object hobject => nomatch hobject
  | pass _ hname hrender hreach ih =>
    subst hname
    exact named_of_reaches hrender hnode hreach ih

theorem runsOnce_of_versions (hchanges : ∀ run ∈ runs, run.ChangesNoType) : RunsOnce s := by
  induction h with
  | start => exact fun object hobject => nomatch hobject
  | pass _ hname hrender hreach ih =>
    subst hname
    obtain ⟨hbefore, hlast⟩ := List.forall_mem_append.1 hchanges
    exact runsOnce_of_changesNoType hrender hnode hreach (ih hbefore) (hlast _ List.mem_cons_self)

/-- **Exactly when no node ever runs twice.** -/
theorem runsOnce_iff :
    (∀ run ∈ runs, ∀ event ∈ run.events, RunsOnce event.after) ↔
      ∀ run ∈ runs, run.ChangesNoType := by
  induction h with
  | start => simp
  | @pass runs s u t c rendered events q earlier hname hrender hreach ih =>
    subst hname
    rw [List.forall_mem_append, List.forall_mem_append, ih, List.forall_mem_singleton,
      List.forall_mem_singleton]
    refine and_congr_right fun hchanges => ⟨fun honce => ?_, fun hlast => ?_⟩
    · intro event hmem object hobject hnew former hformer hrivals
      obtain ⟨before, later, rfl⟩ := List.append_of_mem hmem
      obtain ⟨r, hprefix⟩ := hreach.at_event
      obtain ⟨both, hboth, ha, hb⟩ := exists_both hrender hnode hprefix
        (named_of_versions hnode earlier) hobject hnew hformer hrivals
      have hmem : both ∈ before ++ event :: later := by
        rw [List.append_cons]
        exact List.mem_append_left _ hboth
      exact honce both hmem object ha former hb hrivals
    · intro event hmem
      obtain ⟨before, later, rfl⟩ := List.append_of_mem hmem
      obtain ⟨r, hprefix⟩ := hreach.at_event
      refine runsOnce_of_changesNoType hrender hnode hprefix
        (runsOnce_of_versions hnode earlier hchanges) fun earlier hearlier => ?_
      refine hlast earlier ?_
      rw [List.append_cons]
      exact List.mem_append_left _ hearlier

end Versions

/-! A node that has run as a container is to run as a machine. -/

/-- The topology of one node with its machine in place of the container. -/
def oneMachine : Topology :=
  { oneNode with native := { oneNode.native with executionMode := .vm } }

/-- The runs of a pass for each of the two. -/
theorem machine_run : ∃ runs s, Versions (Server.plain fun _ _ _ => False) "lab" "lab" runs s ∧
    ∃ run ∈ runs, ∃ event ∈ run.events, ¬ RunsOnce event.after := by
  let pass (rendered : SortedMap String RenderedNode) (s : Store) :=
    (reconcileWorkloads "lab" "lab" (rendered.map fun _ node => node.plan)).trace
      (fun call s => Server.perform s call) s
  have hcheck : ((oneNode.render .bare "lab").toOption.any fun first =>
      (oneMachine.render .bare "lab").toOption.any fun second =>
        (pass second (pass first ∅).2.2).1.any fun event =>
          !decide (RunsOnce event.after)) = true := by
    decide +kernel
  obtain ⟨first, hfirst, hcheck⟩ := exists_ok_of_any hcheck
  obtain ⟨second, hsecond, hcheck⟩ := exists_ok_of_any hcheck
  obtain ⟨event, hevent, htwice⟩ := List.any_eq_true.1 hcheck
  have hanswers (call : Call) (s : Store) : (Server.plain fun _ _ _ => False).Attempts s call
      (Server.perform s call).1 (Server.perform s call).2 :=
    Or.inl (Server.answers_perform _ s call)
  refine ⟨_, _, .pass (.pass .start rfl hfirst (reaches_trace hanswers _ ∅)) rfl hsecond
    (reaches_trace hanswers _ _), _, List.mem_append_right _ List.mem_cons_self, event, hevent, ?_⟩
  simpa using htwice

theorem label_node_of_plain {refuses : Store → Call → ClusterError → Prop} {sent stored : Resource}
    (h : (Server.plain refuses).stores sent stored) :
    stored.label? Labels.node = sent.label? Labels.node := by
  obtain ⟨version, rfl⟩ := h
  rfl

/-- The pass for the machine changes the type of the node. -/
theorem machine_changes_type : ∃ runs s,
    Versions (Server.plain fun _ _ _ => False) "lab" "lab" runs s ∧
      ∃ run ∈ runs, ¬ run.ChangesNoType := by
  obtain ⟨runs, s, h, run, hrun, event, hevent, htwice⟩ := machine_run
  refine ⟨runs, s, h, ?_⟩
  by_contra hnone
  push Not at hnone
  exact htwice ((runsOnce_iff label_node_of_plain h).2 hnone run hrun event hevent)

/-- **A node can run twice**: not every pass leaves each node with one workload. -/
theorem runs_twice : ¬ ∀ (server : Server) (name namespaceName : String) (runs : List PassRun)
    (s : Store), (∀ sent stored, server.stores sent stored →
      stored.label? Labels.node = sent.label? Labels.node) →
        Versions server name namespaceName runs s →
          ∀ run ∈ runs, ∀ event ∈ run.events, RunsOnce event.after := by
  intro honce
  obtain ⟨runs, s, h, run, hrun, event, hevent, htwice⟩ := machine_run
  exact htwice (honce _ _ _ runs s (fun _ _ => label_node_of_plain) h run hrun event hevent)

end Singleness

end NetLab
