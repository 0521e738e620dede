import Mathlib.Data.List.Nodup
import Mathlib.Data.List.Pairwise
import NetLab.Proofs.Render.Objects
import NetLab.Proofs.Text.Labels

/-!
# The keys of rendered objects

No two nodes are rendered under one workload name (`Topology.workloadName_inj`), so no two share the
key of a Deployment, a VirtualMachine or a Service.  The name of a ConfigMap is the workload name
with one more part.  In a name that is too long that part is cut off, and then the ConfigMap is
named like the workload, which may be how the ConfigMap of another node is named.

`keys_nodup_iff` says that this is the only way in which two rendered objects come to share a key.
It can happen (`keys_not_distinct`).
-/

namespace NetLab

open Kube

/-- The keys of all objects differ if those of each node do, and no two nodes share one. -/
theorem NodePlan.nodup_keys_iff {plans : SortedMap String NodePlan} :
    ((allObjects plans).map PlannedObject.key).Nodup ↔
      (∀ entry ∈ plans.entries, entry.2.keys.Nodup) ∧
        ∀ a ∈ plans.entries, ∀ b ∈ plans.entries, a.1 ≠ b.1 → ∀ key ∈ a.2.keys, key ∉ b.2.keys := by
  have hkeys : (allObjects plans).map PlannedObject.key =
      plans.entries.flatMap fun entry => entry.2.keys := by
    rw [allObjects, List.map_flatMap]
    rfl
  rw [hkeys, List.nodup_flatMap]
  refine and_congr_right fun _ => ⟨fun hdisjoint a ha b hb hne => ?_, fun hshared => ?_⟩
  · have hsymm : Std.Symm (Function.onFun List.Disjoint fun entry : String × NodePlan =>
        entry.2.keys) := ⟨fun _ _ h _ hb ha => h ha hb⟩
    exact hdisjoint.forall ha hb fun heq => hne (congrArg Prod.fst heq)
  · refine (List.Nodup.of_map _ plans.nodup_keys).pairwise_of_forall_ne fun a ha b hb hne => ?_
    exact hshared a ha b hb fun heq => hne (List.inj_on_of_nodup_map plans.nodup_keys ha hb heq)

/-- A bundle has the name that it was given, and is there if the node ships anything. -/
theorem ConfigBundle.of_ofNode {node : NodeConfig} {name : String} {bundle? : Option ConfigBundle}
    (h : ofNode node name = .ok bundle?) :
    (node.hasContent = false ∧ bundle? = none) ∨
      node.hasContent = true ∧ ∃ entries, bundle? = some ⟨name, entries⟩ := by
  unfold ofNode at h
  split at h
  · split at h
    · cases h
    · exact Or.inr ⟨‹_›, _, (Except.ok.inj h).symm⟩
  · rename_i hempty
    exact Or.inl ⟨by simpa using hempty, (Except.ok.inj h).symm⟩

namespace Topology

variable {t : Topology} {c : Classifier} {namespaceName : String}

/-! ## Names -/

theorem workloadName_eq (t : Topology) (node : String) : t.workloadName node =
    String.ofList (DnsLabel.cut (DnsLabel.stem (t.name ++ "-" ++ node))) :=
  rfl

theorem bundleName_eq (t : Topology) (node : String) : t.bundleName node =
    String.ofList (DnsLabel.cut (DnsLabel.stem (t.name ++ "-" ++ node) ++
      '-' :: DnsLabel.dashed (Text.lower "config").toList)) := by
  rw [← DnsLabel.stem_append]
  rfl

/-- **Two ConfigMaps of one name**, of nodes with different workload names: the one is named like
its workload, because nothing of its own last part is left. -/
theorem bundleName_eq_workloadName {a b : String} (h : t.bundleName a = t.bundleName b)
    (hdiffer : t.workloadName a ≠ t.workloadName b) :
    t.bundleName a = t.workloadName a ∨ t.bundleName b = t.workloadName b := by
  simp only [bundleName_eq, workloadName_eq, ne_eq, String.ofList_inj] at h hdiffer ⊢
  exact DnsLabel.lost_suffix (by decide) (by decide) h hdiffer

/-- No two rendered nodes have one workload name, and none has one that was taken before. -/
theorem workloadNames_of_renderNodes {taken : StringMap} {nodes : List (String × NodeDefinition)}
    {rendered : List (String × RenderedNode)}
    (h : t.renderNodes c namespaceName taken nodes = .ok rendered) :
    (rendered.map fun entry => t.workloadName entry.1).Nodup ∧
      ∀ entry ∈ rendered, taken.get? (t.workloadName entry.1) = none := by
  induction nodes generalizing taken rendered with
  | nil =>
    obtain rfl := Except.ok.inj h
    exact ⟨List.nodup_nil, fun _ hmem => nomatch hmem⟩
  | cons head rest ih =>
    obtain ⟨name, definition⟩ := head
    obtain ⟨hfree, first, others, -, hothers, rfl⟩ := renderNodes_cons_ok h
    obtain ⟨hdistinct, hfresh⟩ := ih hothers
    have hother : ∀ entry ∈ others, t.workloadName entry.1 ≠ t.workloadName name ∧
        taken.get? (t.workloadName entry.1) = none := by
      intro entry hmem
      have hget := hfresh entry hmem
      rw [SortedMap.get?_insert_ite] at hget
      split at hget
      · cases hget
      · exact ⟨‹_›, hget⟩
    refine ⟨List.nodup_cons.2 ⟨?_, hdistinct⟩, ?_⟩
    · rw [List.mem_map]
      rintro ⟨entry, hmem, heq⟩
      exact (hother entry hmem).1 heq
    · exact List.forall_mem_cons.2 ⟨hfree, fun entry hmem => (hother entry hmem).2⟩

section

variable {definitions : SortedMap String NodeDefinition} {rendered : SortedMap String RenderedNode}

/-- **Rendered nodes have workload names of their own.** -/
theorem workloadName_inj (h : t.renderDefinitions c namespaceName definitions = .ok rendered)
    {a b : String × RenderedNode} (ha : a ∈ rendered.entries) (hb : b ∈ rendered.entries)
    (hname : t.workloadName a.1 = t.workloadName b.1) : a = b := by
  unfold renderDefinitions at h
  cases hnodes : t.renderNodes c namespaceName ∅ definitions.entries with
  | error e => simp [hnodes, Except.map] at h
  | ok nodes =>
    obtain rfl : SortedMap.ofList nodes = rendered := by simpa [hnodes, Except.map] using h
    exact List.inj_on_of_nodup_map (workloadNames_of_renderNodes hnodes).1
      (Assoc.mem_of_mem_ofList ha) (Assoc.mem_of_mem_ofList hb) hname

/-! ## Keys -/

/-- The keys of a rendered node: of its ConfigMap, if it ships contents, of its workload and of its
Service. -/
theorem keys_of_isRendered {name : String} {definition : NodeDefinition}
    {bundle? : Option ConfigBundle} {node : RenderedNode}
    (h : t.IsRendered c namespaceName name definition bundle? node) :
    node.plan.keys =
      (if node.config.hasContent then [⟨.configMap, t.bundleName name⟩] else []) ++
        [⟨node.classification.workloadType.kind, t.workloadName name⟩,
          ⟨.service, t.workloadName name⟩] := by
  obtain ⟨hbundle, rfl⟩ := h
  have hworkload (bundle? : Option ConfigBundle) : ((t.context c namespaceName name
      definition).workload t.native.vmDefaults bundle?).key =
        ⟨(t.context c namespaceName name definition).classification.workloadType.kind,
          t.workloadName name⟩ := by
    rw [Resource.key, NodeContext.workload_kind, Resource.name, NodeContext.workload_metadata]
    rfl
  have hservice : (t.context c namespaceName name definition).service.key =
      ⟨.service, t.workloadName name⟩ := rfl
  have hconfig (metadata : Meta) (bundle : ConfigBundle) :
      (NodeContext.configMap metadata bundle).key = ⟨.configMap, metadata.name.getD ""⟩ := rfl
  rcases ConfigBundle.of_ofNode hbundle with ⟨hcontent, rfl⟩ | ⟨hcontent, entries, rfl⟩ <;>
    simp [NodePlan.keys, RenderedNode.plan, NodeContext.objects, NodeContext.objectsAround,
      PlannedObject.key, PlannedObject.free, NodeContext.metadata, hworkload, hservice, hconfig,
      hcontent]

/-- The key of the ConfigMap has the name of the bundle, the others have the name of the
workload. -/
theorem name_of_mem_keys {name : String} {definition : NodeDefinition}
    {bundle? : Option ConfigBundle} {node : RenderedNode}
    (h : t.IsRendered c namespaceName name definition bundle? node) {key : Key}
    (hkey : key ∈ node.plan.keys) :
    (key.kind = .configMap ∧ node.config.hasContent = true ∧ key.name = t.bundleName name) ∨
      key.kind ≠ .configMap ∧ key.name = t.workloadName name := by
  have hworkload (type : WorkloadType) : type.kind ≠ .configMap := by cases type <;> decide
  rw [keys_of_isRendered h] at hkey
  rcases List.mem_append.1 hkey with hconfig | hothers
  · split at hconfig
    · rename_i hcontent
      obtain rfl := List.mem_singleton.1 hconfig
      exact Or.inl ⟨rfl, hcontent, rfl⟩
    · cases hconfig
  · rcases List.mem_pair.1 hothers with rfl | rfl
    · exact Or.inr ⟨hworkload _, rfl⟩
    · exact Or.inr ⟨nofun, rfl⟩

/-- The keys of one node differ: they are of different kinds. -/
theorem nodup_keys_of_isRendered {name : String} {definition : NodeDefinition}
    {bundle? : Option ConfigBundle} {node : RenderedNode}
    (h : t.IsRendered c namespaceName name definition bundle? node) : node.plan.keys.Nodup := by
  rw [keys_of_isRendered h]
  cases node.config.hasContent <;> cases node.classification.workloadType <;>
    simp [WorkloadType.kind]

/-- **What two nodes can share** is the key of a ConfigMap, if both ship contents. -/
theorem shared_key (h : t.renderDefinitions c namespaceName definitions = .ok rendered)
    {a b : String × RenderedNode} (ha : a ∈ rendered.entries) (hb : b ∈ rendered.entries)
    (hne : a.1 ≠ b.1) {key : Key} (hkey : key ∈ a.2.plan.keys) (hkey' : key ∈ b.2.plan.keys) :
    key.kind = .configMap ∧ (a.2.config.hasContent = true ∧ b.2.config.hasContent = true) ∧
      t.bundleName a.1 = t.bundleName b.1 := by
  obtain ⟨definition, bundle?, -, hrendered⟩ := isRendered_of_renderDefinitions h a ha
  obtain ⟨definition', bundle?', -, hrendered'⟩ := isRendered_of_renderDefinitions h b hb
  rcases name_of_mem_keys hrendered hkey with ⟨hkind, hcontent, hname⟩ | ⟨hkind, hname⟩
  · rcases name_of_mem_keys hrendered' hkey' with ⟨-, hcontent', hname'⟩ | ⟨hkind', -⟩
    · exact ⟨hkind, ⟨hcontent, hcontent'⟩, hname.symm.trans hname'⟩
    · exact absurd hkind hkind'
  · rcases name_of_mem_keys hrendered' hkey' with ⟨hkind', -⟩ | ⟨-, hname'⟩
    · exact absurd hkind' hkind
    · exact absurd (congrArg Prod.fst (workloadName_inj h ha hb (hname.symm.trans hname'))) hne

/-- The keys of each rendered node differ. -/
theorem nodup_planKeys (h : t.renderDefinitions c namespaceName definitions = .ok rendered) :
    ∀ entry ∈ (rendered.map fun _ node => node.plan).entries, entry.2.keys.Nodup := by
  intro _ hmem
  obtain ⟨entry, hentry, rfl⟩ := List.mem_map.1 hmem
  obtain ⟨definition, bundle?, -, hrendered⟩ := isRendered_of_renderDefinitions h entry hentry
  exact nodup_keys_of_isRendered hrendered

/-- All keys differ if no two nodes ship contents. -/
theorem nodup_allKeys (h : t.renderDefinitions c namespaceName definitions = .ok rendered)
    (hone : ∀ a ∈ rendered.entries, ∀ b ∈ rendered.entries, a.2.config.hasContent = true →
      b.2.config.hasContent = true → a.1 = b.1) :
    ((NodePlan.allObjects (rendered.map fun _ node => node.plan)).map PlannedObject.key).Nodup := by
  refine NodePlan.nodup_keys_iff.2 ⟨nodup_planKeys h, ?_⟩
  intro _ hmem _ hmem' hne key hkey hkey'
  obtain ⟨a, ha, rfl⟩ := List.mem_map.1 hmem
  obtain ⟨b, hb, rfl⟩ := List.mem_map.1 hmem'
  obtain ⟨-, ⟨hcontent, hcontent'⟩, -⟩ := shared_key h ha hb hne hkey hkey'
  exact hne (hone a ha b hb hcontent hcontent')

/-- The key of the ConfigMap of a node that ships contents. -/
theorem bundle_key_mem (h : t.renderDefinitions c namespaceName definitions = .ok rendered)
    {entry : String × RenderedNode} (hmem : entry ∈ rendered.entries)
    (hcontent : entry.2.config.hasContent = true) :
    ⟨.configMap, t.bundleName entry.1⟩ ∈ entry.2.plan.keys := by
  obtain ⟨definition, bundle?, -, hrendered⟩ := isRendered_of_renderDefinitions h entry hmem
  rw [keys_of_isRendered hrendered, if_pos hcontent]
  exact List.mem_append_left _ (List.mem_singleton.2 rfl)

/-- **When all keys are distinct.**  Two nodes never share the key of a workload or a Service; and
all keys are distinct exactly if no ConfigMap that is named like its own workload, for want of room
for more, is also named like the ConfigMap of another node. -/
theorem keys_nodup_iff (h : t.renderDefinitions c namespaceName definitions = .ok rendered) :
    (∀ a ∈ rendered.entries, ∀ b ∈ rendered.entries, a.1 ≠ b.1 →
      ∀ key ∈ a.2.plan.keys, key ∈ b.2.plan.keys → key.kind = .configMap) ∧
    (((NodePlan.allObjects (rendered.map fun _ node => node.plan)).map PlannedObject.key).Nodup ↔
      ∀ a ∈ rendered.entries, ∀ b ∈ rendered.entries, a.1 ≠ b.1 →
        a.2.config.hasContent = true → b.2.config.hasContent = true →
          t.bundleName a.1 = t.workloadName a.1 → t.bundleName b.1 ≠ t.workloadName a.1) := by
  refine ⟨fun a ha b hb hne key hkey hkey' => (shared_key h ha hb hne hkey hkey').1, ?_⟩
  rw [NodePlan.nodup_keys_iff]
  constructor
  · rintro ⟨-, hshared⟩ a ha b hb hne hcontent hcontent' hcut hsame
    have hkey := bundle_key_mem h ha hcontent
    rw [hcut, ← hsame] at hkey
    exact hshared _ (List.mem_map_of_mem ha) _ (List.mem_map_of_mem hb) hne _ hkey
      (bundle_key_mem h hb hcontent')
  · intro hnone
    refine ⟨nodup_planKeys h, ?_⟩
    intro _ hmem _ hmem' hne key hkey hkey'
    obtain ⟨a, ha, rfl⟩ := List.mem_map.1 hmem
    obtain ⟨b, hb, rfl⟩ := List.mem_map.1 hmem'
    obtain ⟨-, ⟨hcontent, hcontent'⟩, hbundle⟩ := shared_key h ha hb hne hkey hkey'
    have hname : t.workloadName a.1 ≠ t.workloadName b.1 := by
      intro heq
      obtain rfl := workloadName_inj h ha hb heq
      exact hne rfl
    rcases bundleName_eq_workloadName hbundle hname with hcut | hcut
    · exact hnone a ha b hb hne hcontent hcontent' hcut (hbundle.symm.trans hcut)
    · exact hnone b hb a ha hne.symm hcontent' hcontent hcut (hbundle.trans hcut)

end

/-! Two nodes whose names differ only after there is no more room for a whole `-config`. -/

/-- A node that ships a startup configuration. -/
def shipper : NodeDefinition :=
  { NodeDefinition.ofImage "router" "frr" with startupConfig := some "hostname r1" }

/-- With a dash and the name of its first node, the name of this topology makes 60 characters. -/
def longName : Topology :=
  ((Topology.ofName (String.ofList (List.replicate 57 'a'))).withNode "r1" shipper).withNode
    "r1-co" shipper

theorem longName_renders : ∃ rendered,
    longName.renderDefinitions .bare "lab" longName.nodes = .ok rendered ∧
      rendered.entries.map (fun entry => (entry.1, entry.2.config.hasContent)) =
        [("r1", true), ("r1-co", true)] := by
  have hcheck : ((longName.renderDefinitions .bare "lab" longName.nodes).toOption.any
      fun rendered => decide (rendered.entries.map (fun entry =>
        (entry.1, entry.2.config.hasContent)) = [("r1", true), ("r1-co", true)])) = true := by
    decide +kernel
  obtain ⟨rendered, hrender, hentries⟩ := exists_ok_of_any hcheck
  exact ⟨rendered, hrender, of_decide_eq_true hentries⟩

theorem longName_bundleName : longName.bundleName "r1" = longName.bundleName "r1-co" := by
  have hname : longName.name = String.ofList (List.replicate 57 'a') := rfl
  simp only [bundleName_eq, hname, DnsLabel.stem_eq, String.toList_append, String.toList_ofList,
    String.ofList_inj]
  decide +kernel

theorem longName_shares : ∃ rendered,
    longName.renderDefinitions .bare "lab" longName.nodes = .ok rendered ∧
      ¬ ((NodePlan.allObjects (rendered.map fun _ node => node.plan)).map
        PlannedObject.key).Nodup := by
  obtain ⟨rendered, hrender, hentries⟩ := longName_renders
  obtain ⟨a, ha, hfirst⟩ := List.mem_map.1 (hentries ▸ List.mem_cons_self ..)
  obtain ⟨b, hb, hsecond⟩ := List.mem_map.1 (hentries ▸ List.mem_cons_of_mem _ List.mem_cons_self)
  obtain ⟨hname, hcontent⟩ := Prod.mk.inj hfirst
  obtain ⟨hname', hcontent'⟩ := Prod.mk.inj hsecond
  refine ⟨rendered, hrender, fun hdistinct => ?_⟩
  have hkey := bundle_key_mem hrender hb hcontent'
  rw [hname', ← longName_bundleName, ← hname] at hkey
  exact (NodePlan.nodup_keys_iff.1 hdistinct).2 _ (List.mem_map_of_mem ha) _
    (List.mem_map_of_mem hb) (by simp [hname, hname']) _ (bundle_key_mem hrender ha hcontent) hkey

/-- In the one topology a ConfigMap that is named like its workload is named like another one. -/
theorem longName_loses_suffix : ∃ rendered,
    longName.renderDefinitions .bare "lab" longName.nodes = .ok rendered ∧
      ∃ a ∈ rendered.entries, ∃ b ∈ rendered.entries, a.1 ≠ b.1 ∧
        longName.bundleName a.1 = longName.workloadName a.1 ∧
          longName.bundleName b.1 = longName.workloadName a.1 := by
  obtain ⟨rendered, hrender, hshared⟩ := longName_shares
  rw [(keys_nodup_iff hrender).2] at hshared
  push Not at hshared
  obtain ⟨a, ha, b, hb, hne, -, -, hcut, hsame⟩ := hshared
  exact ⟨rendered, hrender, a, ha, b, hb, hne, hcut, hsame⟩

/-- **Two nodes can be rendered with one ConfigMap between them.** -/
theorem keys_not_distinct : ¬ ∀ (t : Topology) (c : Classifier) (namespaceName : String)
    (definitions : SortedMap String NodeDefinition) (rendered : SortedMap String RenderedNode),
    t.renderDefinitions c namespaceName definitions = .ok rendered →
      ((NodePlan.allObjects (rendered.map fun _ node => node.plan)).map
        PlannedObject.key).Nodup := by
  intro hdistinct
  obtain ⟨rendered, hrender, hshared⟩ := longName_shares
  exact hshared (hdistinct _ _ _ _ _ hrender)

end Topology

end NetLab
