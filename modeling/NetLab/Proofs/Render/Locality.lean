import NetLab.Proofs.Policy.Keys
import NetLab.Proofs.Reconcile.Convergence
import NetLab.Proofs.Reconcile.UpToDate
import NetLab.Proofs.Render.Identity

/-!
# Edits are local

What a topology says about a node is little (`Topology.AgreesAt`): the definition and the override
of the node, the settings for all nodes, and the links that have an end at it.  Two topologies that
say the same about a node render it alike (`Topology.get?_render`), whatever else is in them; and if
they declare the same of its peers, then it has the same policy (`Topology.linkedPeers_eq`).

So an edit of one node is no reason for a pass to touch the objects of another that it is not linked
to, unless the two come to share a key.  `edits_are_local` says that this is exact: a pass after the
edit spares what was up to date if no other node has an object of its key, and overwrites it if one
has, which only happens to ConfigMaps and policies.  It does happen (`edits_not_spared`): an edited
node can get a ConfigMap of the name that the one of another node has.
-/

namespace NetLab

open Kube Cluster

namespace Topology

variable {t t' : Topology} {node : String} {c : Classifier} {namespaceName : String}

/-- The link has an end at the node. -/
def touches (node : String) (pair : Endpoint × Endpoint) : Bool :=
  pair.1.node = node || pair.2.node = node

/-- **Two topologies say the same about a node.** -/
structure AgreesAt (t t' : Topology) (node : String) : Prop where
  name : t.name = t'.name
  definition : t.nodes.get? node = t'.nodes.get? node
  executionMode : t.native.executionMode = t'.native.executionMode
  cni : t.native.cni = t'.native.cni
  resources : t.native.resources = t'.native.resources
  vmDefaults : t.native.vmDefaults = t'.native.vmDefaults
  nodeOverride : t.native.nodeOverrides.get? node = t'.native.nodeOverrides.get? node
  /-- The well-formed links with an end at the node, in their order. -/
  links : t.endpointPairs.filter (touches node) = t'.endpointPairs.filter (touches node)

/-! ## What is read of the links -/

/-- A link without an end at the node gives it no interface. -/
theorem interfacesOf_eq_filter (t : Topology) (node : String) :
    t.interfacesOf node = (t.endpointPairs.filter (touches node)).flatMap fun (a, b) =>
      (if a.node = node then [⟨a.interface, b⟩] else []) ++
        (if b.node = node then [⟨b.interface, a⟩] else []) := by
  unfold interfacesOf
  induction t.endpointPairs with
  | nil => rfl
  | cons pair rest ih =>
    by_cases hend : touches node pair = true
    · rw [List.filter_cons_of_pos hend, List.flatMap_cons, List.flatMap_cons, ih]
    · rw [List.filter_cons_of_neg hend, List.flatMap_cons, ih]
      simp only [touches, Bool.or_eq_true, decide_eq_true_eq, not_or] at hend
      simp [hend]

/-- A link without an end at the node leads to no other node. -/
theorem otherEnds_eq_filter (t : Topology) (node : String) :
    t.endpointPairs.filterMap (otherEnd? node) =
      (t.endpointPairs.filter (touches node)).filterMap (otherEnd? node) := by
  rw [List.filterMap_filter]
  refine List.filterMap_congr fun pair _ => ?_
  split
  · rfl
  · rename_i hfar
    simp only [touches, Bool.or_eq_true, decide_eq_true_eq, not_or] at hfar
    simp [otherEnd?, hfar]

/-- **The peers of a node** depend on the links at the node, and on which of the peers are
declared. -/
theorem linkedPeers_eq
    (hlinks : t.endpointPairs.filter (touches node) = t'.endpointPairs.filter (touches node))
    (hdeclared : ∀ pair ∈ t.endpointPairs, ∀ peer, otherEnd? node pair = some peer →
      t.nodes.contains peer = t'.nodes.contains peer) :
    t.linkedPeers node = t'.linkedPeers node := by
  have hends : t.endpointPairs.filterMap (otherEnd? node) =
      t'.endpointPairs.filterMap (otherEnd? node) := by
    rw [otherEnds_eq_filter, otherEnds_eq_filter, hlinks]
  have hpeers : ((t.endpointPairs.filterMap (otherEnd? node)).filter fun peer =>
      peer ≠ node && t.nodes.contains peer) =
        (t'.endpointPairs.filterMap (otherEnd? node)).filter fun peer =>
          peer ≠ node && t'.nodes.contains peer := by
    rw [← hends]
    refine List.filter_congr fun peer hmem => ?_
    obtain ⟨pair, hpair, hend⟩ := List.mem_filterMap.1 hmem
    rw [hdeclared pair hpair peer hend]
  unfold linkedPeers
  rw [hpeers]

/-! ## What is read to render a node -/

namespace AgreesAt

theorem nodeConfig (h : t.AgreesAt t' node) (definition : NodeDefinition) :
    t.nodeConfig node definition = t'.nodeConfig node definition := by
  simp only [Topology.nodeConfig, interfacesOf_eq_filter, h.name, h.executionMode, h.cni,
    h.resources, h.nodeOverride, h.links]

theorem context (h : t.AgreesAt t' node) (definition : NodeDefinition) :
    t.context c namespaceName node definition = t'.context c namespaceName node definition := by
  simp only [Topology.context, h.nodeConfig, h.name, workloadName]

/-- The node is rendered in one way. -/
theorem isRendered (h : t.AgreesAt t' node) {definition : NodeDefinition}
    {bundle? bundle'? : Option ConfigBundle} {rendered rendered' : RenderedNode}
    (hrendered : t.IsRendered c namespaceName node definition bundle? rendered)
    (hrendered' : t'.IsRendered c namespaceName node definition bundle'? rendered') :
    rendered = rendered' := by
  obtain ⟨hbundle, rfl⟩ := hrendered
  obtain ⟨hbundle', rfl⟩ := hrendered'
  have hname : t.bundleName node = t'.bundleName node := by rw [bundleName, bundleName, h.name]
  rw [h.context, hname] at hbundle
  obtain rfl := Except.ok.inj (hbundle.symm.trans hbundle')
  rw [h.context, h.vmDefaults]

end AgreesAt

/-- **A node is rendered alike** in topologies that say the same about it. -/
theorem get?_render {rendered rendered' : SortedMap String RenderedNode}
    (hagrees : t.AgreesAt t' node) (h : t.render c namespaceName = .ok rendered)
    (h' : t'.render c namespaceName = .ok rendered') :
    rendered.get? node = rendered'.get? node := by
  have hdeclared : rendered.contains node = rendered'.contains node := by
    rw [contains_render h, contains_render h', SortedMap.contains, SortedMap.contains,
      hagrees.definition]
  cases hresult : rendered.get? node with
  | none =>
    have hnone : rendered'.contains node = false := by
      rw [← hdeclared, SortedMap.contains, hresult]
      rfl
    exact (Option.isSome_eq_false_iff.1 hnone |> Option.isNone_iff_eq_none.1).symm
  | some result =>
    have hsome : rendered'.contains node = true := by
      rw [← hdeclared, SortedMap.contains, hresult]
      rfl
    obtain ⟨result', hresult'⟩ := Option.isSome_iff_exists.1 hsome
    obtain ⟨definition, bundle?, hmem, hrendered⟩ :=
      isRendered_of_render h (node, result) (SortedMap.get?_eq_some_iff.1 hresult)
    obtain ⟨definition', bundle'?, hmem', hrendered'⟩ :=
      isRendered_of_render h' (node, result') (SortedMap.get?_eq_some_iff.1 hresult')
    have hdefinition : t.nodes.get? node = some definition := SortedMap.get?_eq_some_iff.2 hmem
    rw [hagrees.definition, SortedMap.get?_eq_some_iff.2 hmem'] at hdefinition
    obtain rfl := Option.some.inj hdefinition
    rw [hresult']
    exact congrArg some (hagrees.isRendered hrendered hrendered')

/-! ## What passes do about it -/

section Passes

variable {rendered rendered' : SortedMap String RenderedNode} {result : RenderedNode} {key : Key}
  {live : Resource}

/-- The group of a rendered node. -/
theorem group_mem {name : String} (hmem : (name, result) ∈ rendered.entries) :
    ⟨name, some result.plan.workloadType, result.plan.objects⟩ ∈
      NodePlan.groups (rendered.map fun _ node => node.plan) :=
  List.mem_map.2 ⟨(name, result.plan), List.mem_map.2 ⟨(name, result), hmem, rfl⟩, rfl⟩

/-- No pass refuses what was rendered. -/
theorem accepted_of_render (h : t.render c namespaceName = .ok rendered) (target : String) :
    ∀ group ∈ NodePlan.groups (rendered.map fun _ node => node.plan),
      group.refusal? (.workloads t.name target) = none := by
  intro group hgroup
  obtain ⟨entry, hentry, rfl⟩ := List.mem_map.1 hgroup
  have hplan := wellFormed_of_render h entry hentry
  exact Group.refusal?_eq_none hplan.kinds (PlannedObject.applyOrder?_eq_self hplan.inOrder)

/-- The objects of a rendered node carry its name. -/
theorem label?_node_of_render (h : t.render c namespaceName = .ok rendered)
    {entry : String × RenderedNode} (hmem : entry ∈ rendered.entries) {planned : PlannedObject}
    (hplanned : planned ∈ entry.2.objects) :
    planned.object.label? Labels.node = some entry.1 := by
  obtain ⟨definition, bundle?, -, -, hrendered⟩ := isRendered_of_render h entry hmem
  rw [hrendered] at hplanned
  rw [NodeContext.label?_of_mem_objects _ _ _ hplanned, NodeContext.label?_node,
    (t.identified_context c namespaceName entry.1 definition).node]
  exact congrArg some (t.nodeConfig_name entry.1 definition)

/-- A ConfigMap of a rendered node depends on nothing. -/
theorem free_of_render (h : t.render c namespaceName = .ok rendered)
    {entry : String × RenderedNode} (hmem : entry ∈ rendered.entries) {planned : PlannedObject}
    (hplanned : planned ∈ entry.2.objects) (hkind : planned.key.kind = .configMap) :
    planned.dependencies = [] := by
  obtain ⟨definition, bundle?, -, -, hrendered⟩ := isRendered_of_render h entry hmem
  rw [hrendered] at hplanned
  rcases NodeContext.mem_objects _ _ _ hplanned with ⟨bundle, -, rfl⟩ | rfl | rfl
  · rfl
  · refine absurd ((NodeContext.workload_kind ..).symm.trans hkind) ?_
    cases (t.context c namespaceName entry.1 definition).classification.workloadType <;> decide
  · cases hkind

/-- What a clean pass has left in place is up to date. -/
theorem upToDate_of_converged {topology : String} {plans : SortedMap String NodePlan} {s : Store}
    (hconverged : Convergence.Converged topology (NodePlan.allObjects plans) s)
    (hkey : key ∈ Group.keysOf (NodePlan.groups plans)) (hstored : s.get? key = some live) :
    UpToDate (NodePlan.groups plans) key live where
  planned := hkey
  unchanged := by
    intro group hgroup planned hplanned heq
    obtain ⟨entry, hentry, rfl⟩ := List.mem_map.1 hgroup
    obtain ⟨object, hobject, -, hsame⟩ :=
      hconverged.inSync planned (List.mem_flatMap.2 ⟨entry, hentry, hplanned⟩)
    rw [heq, hstored] at hobject
    rwa [Option.some.inj hobject]

section Workloads

variable (hagrees : t.AgreesAt t' node) (h : t.render c namespaceName = .ok rendered)
  (h' : t'.render c namespaceName = .ok rendered') (hresult : rendered.get? node = some result)
  (hkey : key ∈ result.plan.keys)
  (hcurrent : UpToDate (NodePlan.groups (rendered.map fun _ node => node.plan)) key live)

include hagrees h h' hresult hkey hcurrent

/-- The workload passes after an edit spare an object of the node that was up to date before it, if
no other node has an object of that key. -/
theorem spares_of_agreesAt
    (hown : ∀ other ∈ rendered'.entries, other.1 ≠ node → key ∉ other.2.plan.keys) :
    Spares (reconcileWorkloads t'.name namespaceName (rendered'.map fun _ node => node.plan))
      t'.name key live := by
  have hbefore : (node, result) ∈ rendered.entries := SortedMap.get?_eq_some_iff.1 hresult
  have hafter : (node, result) ∈ rendered'.entries :=
    SortedMap.get?_eq_some_iff.1 ((get?_render hagrees h h').symm.trans hresult)
  obtain ⟨planned, hplanned, rfl⟩ := List.mem_map.1 hkey
  refine Reconciles.spares (.workloads _ _ _)
    ⟨Group.mem_keysOf (group_mem hafter) hplanned, fun group hmem other hother heq => ?_⟩
  obtain ⟨entry, hentry, rfl⟩ := List.mem_map.1 hmem
  obtain ⟨⟨name, shown⟩, hshown, rfl⟩ := List.mem_map.1 hentry
  by_cases hname : name = node
  · subst hname
    obtain rfl : shown = result := Option.some.inj ((SortedMap.get?_eq_some_iff.2 hshown).symm.trans
      (SortedMap.get?_eq_some_iff.2 hafter))
    exact hcurrent.unchanged _ (group_mem hbefore) other hother heq
  · exact absurd (heq ▸ List.mem_map_of_mem hother) (hown _ hshown hname)

/-- If another node has an object of that key, it is a ConfigMap, and they overwrite it: no object
can carry the names of both nodes. -/
theorem overwrites_of_agreesAt {other : String × RenderedNode} (hother : other ∈ rendered'.entries)
    (hne : other.1 ≠ node) (hshared : key ∈ other.2.plan.keys) :
    key.kind = .configMap ∧ Overwrites (reconcileWorkloads t'.name namespaceName
      (rendered'.map fun _ node => node.plan)) t'.name key live := by
  have hbefore : (node, result) ∈ rendered.entries := SortedMap.get?_eq_some_iff.1 hresult
  have hafter : (node, result) ∈ rendered'.entries :=
    SortedMap.get?_eq_some_iff.1 ((get?_render hagrees h h').symm.trans hresult)
  have hkind : key.kind = .configMap := (shared_key h' hafter hother hne.symm hkey hshared).1
  obtain ⟨own, hown, rfl⟩ := List.mem_map.1 hkey
  obtain ⟨planned, hplanned, heq⟩ := List.mem_map.1 hshared
  have hdrifted : planned.object.needsUpdate live = true := by
    by_contra hsettled
    rw [Bool.not_eq_true] at hsettled
    have hsame := hcurrent.unchanged _ (group_mem hbefore) own hown rfl
    have hlabel := (Resource.label?_of_settled hsettled Labels.node).trans
      (Resource.label?_of_settled hsame Labels.node).symm
    rw [label?_node_of_render h' hother hplanned, label?_node_of_render h' hafter hown] at hlabel
    exact hne (Option.some.inj hlabel)
  have hfree := free_of_render h' hother hplanned (heq ▸ hkind)
  exact ⟨hkind, Reconciles.overwrites (.workloads _ _ _) (accepted_of_render h' namespaceName)
    ⟨_, group_mem hother, planned, hplanned, heq, hfree, hdrifted⟩⟩

/-- So do runs that start from a store where the node was in place. -/
theorem writes_of_agreesAt {server : Server} (hserver : server.Faithful t'.name) {s u : Store}
    (hstored : s.get? key = some live) (hown : live.ownedBy t'.name = true)
    {other : String × RenderedNode} (hother : other ∈ rendered'.entries) (hne : other.1 ≠ node)
    (hshared : key ∈ other.2.plan.keys) {events : List (Event Store)} {report : PassReport}
    (hreach : (reconcileWorkloads t'.name namespaceName
      (rendered'.map fun _ node => node.plan)).Reaches server.Answers s events
        (.done (.ok report)) u) :
    ∃ event ∈ events, event.call.isWrite = true ∧ event.call.key? = some key := by
  obtain ⟨hkind, hoverwrites⟩ :=
    overwrites_of_agreesAt hagrees h h' hresult hkey hcurrent hother hne hshared
  have hmirrors := Reconciles.mirrors (.workloads _ _ _) hserver hreach
  have hhandled : key.kind ∈ Kind.workloads := by
    rw [hkind]
    decide
  obtain ⟨object, answer, hmem, hreplaced⟩ :=
    hoverwrites _ _ hreach.yields ((hmirrors key live).2 ⟨hstored, hown, hhandled⟩)
  obtain ⟨event, hevent, heq⟩ := List.mem_map.1 hmem
  obtain ⟨hcall, -⟩ := Sigma.mk.inj heq
  refine ⟨event, hevent, ?_, ?_⟩
  · rw [hcall]
    rfl
  · rw [hcall]
    exact congrArg some hreplaced

end Workloads

section Policies

variable {policy : Resource} (hpolicy : policy = linkPolicy t.name node (t.linkedPeers node)
    namespaceName) (hdeclared : t.nodes.contains node = true)
  (hcurrent : policy.needsUpdate live = false)

include hpolicy hdeclared hcurrent

/-- The connectivity passes spare a policy of a node that is up to date, if no other policy has its
key. -/
theorem spares_linkPolicy
    (hown : ∀ planned ∈ t.policies namespaceName, planned.key = policy.key →
      planned.object = policy) :
    Spares (reconcileConnectivity t namespaceName) t.name policy.key live := by
  obtain ⟨own, hmem, hobject⟩ :=
    List.mem_map.1 (mem_policies.2 (Or.inl ⟨node, hdeclared, hpolicy⟩))
  refine Reconciles.spares (.policies _ _ _) ⟨?_, fun group hgroup planned hplanned heq => ?_⟩
  · have hkey := Group.mem_keysOf (List.mem_singleton.2 rfl :
      (⟨t.name, none, t.policies namespaceName⟩ : Group) ∈ [_]) hmem
    rwa [PlannedObject.key, hobject] at hkey
  · obtain rfl := List.mem_singleton.1 hgroup
    rwa [hown planned hplanned heq]

/-- They overwrite it if another policy has its key. -/
theorem overwrites_linkPolicy {planned : PlannedObject}
    (hplanned : planned ∈ t.policies namespaceName) (hkey : planned.key = policy.key)
    (hne : planned.object ≠ policy) :
    Overwrites (reconcileConnectivity t namespaceName) t.name policy.key live := by
  have hmem : policy ∈ t.policyList namespaceName := by
    rw [hpolicy]
    exact List.mem_append_left _ (List.mem_map.2 ⟨node, SortedMap.mem_keys_iff.2 hdeclared, rfl⟩)
  obtain ⟨other, hother, rfl⟩ := mem_policies_iff.1 hplanned
  have hdrifted := needsUpdate_of_ne hmem hother (Ne.symm hne) hcurrent
  exact Reconciles.overwrites (.policies _ _ _) (t.fit_policies namespaceName).accepted
    ⟨_, List.mem_singleton.2 rfl, _, hplanned, hkey, rfl, hdrifted⟩

end Policies

end Passes

/-! ## Edits -/

/-- What is linked to the node is declared in both topologies or in neither. -/
def SamePeers (t t' : Topology) (node : String) : Prop :=
  ∀ pair ∈ t.endpointPairs, ∀ peer, otherEnd? node pair = some peer →
    t.nodes.contains peer = t'.nodes.contains peer

/-- The topology after an edit of one node: its definition and its override are replaced by others,
or removed, and so are links. -/
def edit (t : Topology) (edited : String) (definition? : Option NodeDefinition)
    (nodeOverride? : Option NodeOverride) (links : List Link) : Topology :=
  { t with
    nodes := (definition?.map (t.nodes.insert edited)).getD (t.nodes.erase edited)
    links
    native := { t.native with
      nodeOverrides := (nodeOverride?.map (t.native.nodeOverrides.insert edited)).getD
        (t.native.nodeOverrides.erase edited) } }

theorem get?_edited {α : Type} (m : SortedMap String α) {edited other : String} (value? : Option α)
    (hne : other ≠ edited) :
    ((value?.map (m.insert edited)).getD (m.erase edited)).get? other = m.get? other := by
  cases value? with
  | none => simp [SortedMap.get?_erase, hne]
  | some value => simp [hne]

/-- An edit says nothing about another node if the links at that node stay as they are. -/
theorem agreesAt_edit {edited : String} (definition? : Option NodeDefinition)
    (nodeOverride? : Option NodeOverride) {links : List Link} (hne : node ≠ edited)
    (hlinks : t.endpointPairs.filter (touches node) =
      (links.filterMap Link.pair?).filter (touches node)) :
    t.AgreesAt (t.edit edited definition? nodeOverride? links) node where
  name := rfl
  definition := (get?_edited t.nodes definition? hne).symm
  executionMode := rfl
  cni := rfl
  resources := rfl
  vmDefaults := rfl
  nodeOverride := (get?_edited t.native.nodeOverrides nodeOverride? hne).symm
  links := hlinks

/-- Nor does it declare anything of the peers of a node that it is not linked to. -/
theorem samePeers_edit {edited : String} (definition? : Option NodeDefinition)
    (nodeOverride? : Option NodeOverride) (links : List Link)
    (hunlinked : ∀ pair ∈ t.endpointPairs, otherEnd? node pair ≠ some edited) :
    t.SamePeers (t.edit edited definition? nodeOverride? links) node := by
  intro pair hpair peer hend
  have hne : peer ≠ edited := by
    rintro rfl
    exact hunlinked pair hpair hend
  simp only [SortedMap.contains, edit, get?_edited t.nodes definition? hne]

/-- **What an edit reaches.**  Topologies that say the same about a node have the same result for it:
its classification, its configuration, all of its objects, and what they depend on.  If also the same
of its peers are declared, it has the same peers and the same policy.  And such is every edit of
another node that leaves the links at the node as they are.

A pass after the edit makes no call about an object of the node that was up to date before, if
nothing else has its key.  If something else has it, which can only be the ConfigMap of another node
or another policy, every pass that finds the object sends a replacement for it. -/
theorem edits_are_local :
    (t.AgreesAt t' node →
      (∀ c namespaceName rendered rendered', t.render c namespaceName = .ok rendered →
        t'.render c namespaceName = .ok rendered' →
          rendered.get? node = rendered'.get? node ∧
          ∀ result, rendered.get? node = some result → ∀ key ∈ result.plan.keys, ∀ live,
            UpToDate (NodePlan.groups (rendered.map fun _ node => node.plan)) key live →
              ((∀ other ∈ rendered'.entries, other.1 ≠ node → key ∉ other.2.plan.keys) →
                Spares (reconcileWorkloads t'.name namespaceName
                  (rendered'.map fun _ node => node.plan)) t'.name key live) ∧
              ∀ other ∈ rendered'.entries, other.1 ≠ node → key ∈ other.2.plan.keys →
                key.kind = .configMap ∧
                  Overwrites (reconcileWorkloads t'.name namespaceName
                    (rendered'.map fun _ node => node.plan)) t'.name key live) ∧
      (t.SamePeers t' node →
        t.linkedPeers node = t'.linkedPeers node ∧
        ∀ namespaceName policy,
          policy = linkPolicy t.name node (t.linkedPeers node) namespaceName →
            policy = linkPolicy t'.name node (t'.linkedPeers node) namespaceName ∧
            (t'.nodes.contains node = true → ∀ live, policy.needsUpdate live = false →
              ((∀ planned ∈ t'.policies namespaceName, planned.key = policy.key →
                  planned.object = policy) →
                Spares (reconcileConnectivity t' namespaceName) t'.name policy.key live) ∧
              ∀ planned ∈ t'.policies namespaceName, planned.key = policy.key →
                planned.object ≠ policy →
                  Overwrites (reconcileConnectivity t' namespaceName) t'.name policy.key
                    live))) ∧
    ∀ edited definition? nodeOverride? links, node ≠ edited →
      (∀ pair ∈ t.endpointPairs, otherEnd? node pair ≠ some edited) →
        t.endpointPairs.filter (touches node) =
            (links.filterMap Link.pair?).filter (touches node) →
          t.AgreesAt (t.edit edited definition? nodeOverride? links) node ∧
            t.SamePeers (t.edit edited definition? nodeOverride? links) node := by
  refine ⟨fun hagrees => ⟨?_, fun hpeers => ?_⟩, ?_⟩
  · intro c namespaceName rendered rendered' h h'
    refine ⟨get?_render hagrees h h', fun result hresult key hkey live hcurrent => ⟨?_, ?_⟩⟩
    · exact spares_of_agreesAt hagrees h h' hresult hkey hcurrent
    · exact fun _ => overwrites_of_agreesAt hagrees h h' hresult hkey hcurrent
  · have hlinked := linkedPeers_eq hagrees.links hpeers
    refine ⟨hlinked, fun namespaceName policy hpolicy => ?_⟩
    rw [hlinked, hagrees.name] at hpolicy
    refine ⟨hpolicy, fun hdeclared live hcurrent => ⟨?_, ?_⟩⟩
    · exact spares_linkPolicy hpolicy hdeclared hcurrent
    · exact fun _ => overwrites_linkPolicy hpolicy hdeclared hcurrent
  · intro edited definition? nodeOverride? links hne hunlinked hlinks
    exact ⟨agreesAt_edit definition? nodeOverride? hne hlinks,
      samePeers_edit definition? nodeOverride? links hunlinked⟩

/-! Three nodes, of which a link joins two; the third is removed. -/

def withoutThird : Topology := threeNodes.edit "r3" none none threeNodes.links

/-- The node `r1` is as it was, and the passes after the removal spare its objects and its policy. -/
theorem removal_is_local : ∃ rendered rendered' result,
    threeNodes.render .bare "sim" = .ok rendered ∧
      withoutThird.render .bare "sim" = .ok rendered' ∧
      rendered.keys = ["r1", "r2", "r3"] ∧ rendered'.keys = ["r1", "r2"] ∧
      rendered.get? "r1" = some result ∧ rendered'.get? "r1" = some result ∧
      (∀ planned ∈ result.objects, Spares (reconcileWorkloads "lab" "sim"
        (rendered'.map fun _ node => node.plan)) "lab" planned.key planned.object) ∧
      withoutThird.linkedPeers "r1" = ["r2"] ∧
      Spares (reconcileConnectivity withoutThird "sim") "lab" ⟨.networkPolicy, "lab-r1-links"⟩
        (linkPolicy "lab" "r1" ["r2"] "sim") := by
  have hcheck : ((threeNodes.render .bare "sim").toOption.any fun rendered =>
      (withoutThird.render .bare "sim").toOption.any fun rendered' =>
        decide (rendered.keys = ["r1", "r2", "r3"] ∧ rendered'.keys = ["r1", "r2"]) &&
          (rendered.get? "r1").any fun result => decide (∀ planned ∈ result.objects,
            UpToDate (NodePlan.groups (rendered.map fun _ node => node.plan)) planned.key
              planned.object ∧
            ∀ other ∈ rendered'.entries, other.1 ≠ "r1" → planned.key ∉ other.2.plan.keys)) =
        true := by
    decide +kernel
  obtain ⟨rendered, hrender, hcheck⟩ := exists_ok_of_any hcheck
  obtain ⟨rendered', hrender', hcheck⟩ := exists_ok_of_any hcheck
  obtain ⟨hkeys, hcheck⟩ := Bool.and_eq_true_iff.1 hcheck
  obtain ⟨hbefore, hafter⟩ := of_decide_eq_true hkeys
  obtain ⟨result, hresult, hcheck⟩ := (Option.any_eq_true _ _).1 hcheck
  have hpeers : withoutThird.linkedPeers "r1" = ["r2"] := by decide +kernel
  obtain ⟨hagrees, hdeclared⟩ := (@edits_are_local threeNodes threeNodes "r1").2 "r3" none none
    threeNodes.links (by decide) (by decide) rfl
  obtain ⟨hworkloads, hpolicies⟩ := edits_are_local.1 hagrees
  obtain ⟨hsame, hspares⟩ := hworkloads _ _ _ _ hrender hrender'
  obtain ⟨hlinked, hpolicy⟩ := hpolicies hdeclared
  refine ⟨rendered, rendered', result, hrender, hrender', hbefore, hafter, hresult,
    hsame.symm.trans hresult, fun planned hplanned => ?_, hpeers, ?_⟩
  · obtain ⟨hcurrent, hown⟩ := of_decide_eq_true hcheck planned hplanned
    exact (hspares result hresult _ (List.mem_map_of_mem hplanned) _ hcurrent).1 hown
  · have hown : ∀ policy ∈ withoutThird.policyList "sim",
        policy.key = (linkPolicy "lab" "r1" ["r2"] "sim").key →
          policy = linkPolicy "lab" "r1" ["r2"] "sim" := by
      decide +kernel
    have hpeers' : threeNodes.linkedPeers "r1" = ["r2"] := hlinked.trans hpeers
    obtain ⟨-, hcurrent⟩ := hpolicy "sim" (linkPolicy "lab" "r1" ["r2"] "sim") (by rw [hpeers']; rfl)
    refine (hcurrent (by decide) (linkPolicy "lab" "r1" ["r2"] "sim") (by decide +kernel)).1 ?_
    intro planned hplanned hkey
    obtain ⟨policy, hmem, rfl⟩ := mem_policies_iff.1 hplanned
    exact hown policy hmem hkey

/-! A node gets a configuration, and its ConfigMap the name of another one. -/

/-- The two nodes of `longName`, before the second one ships anything. -/
def longNeighbours : Topology :=
  ((Topology.ofName (String.ofList (List.replicate 57 'a'))).withNode "r1" shipper).withNode
    "r1-co" (.ofImage "router" "frr")

theorem longNeighbours_edit : longNeighbours.edit "r1-co" (some shipper) none [] = longName := rfl

theorem longNeighbours_renders : ∃ rendered, longNeighbours.render .bare "lab" = .ok rendered ∧
    rendered.entries.map (fun entry => (entry.1, entry.2.config.hasContent)) =
      [("r1", true), ("r1-co", false)] := by
  have hcheck : ((longNeighbours.render .bare "lab").toOption.any fun rendered =>
      decide (rendered.entries.map (fun entry => (entry.1, entry.2.config.hasContent)) =
        [("r1", true), ("r1-co", false)])) = true := by
    decide +kernel
  obtain ⟨rendered, hrender, hentries⟩ := exists_ok_of_any hcheck
  exact ⟨rendered, hrender, of_decide_eq_true hentries⟩

/-- As only `r1` ships anything, there is a clean pass. -/
theorem longNeighbours_converges {rendered : SortedMap String RenderedNode}
    (hrender : longNeighbours.render .bare "lab" = .ok rendered)
    (hentries : rendered.entries.map (fun entry => (entry.1, entry.2.config.hasContent)) =
      [("r1", true), ("r1-co", false)]) :
    ∃ events report s, (reconcileWorkloads longNeighbours.name "lab"
      (rendered.map fun _ node => node.plan)).Reaches (Server.plain fun _ _ _ => False).Answers ∅
        events (.done (.ok report)) s ∧ report.isClean = true ∧
      Convergence.Converged longNeighbours.name
        (NodePlan.allObjects (rendered.map fun _ node => node.plan)) s := by
  refine Convergence.exists_converged (Server.plain_faithful _) (wellFormed_of_render hrender)
    (Server.plain_available _) (fun _ _ _ => id) (nodup_allKeys hrender ?_) ?_
  · have hone : ∀ entry ∈ rendered.entries, entry.2.config.hasContent = true → entry.1 = "r1" := by
      intro entry hentry hships
      have hpair : (entry.1, entry.2.config.hasContent) ∈ [("r1", true), ("r1-co", false)] :=
        hentries ▸ List.mem_map_of_mem hentry
      simpa [hships] using hpair
    intro a ha b hb hships hships'
    rw [hone a ha hships, hone b hb hships']
  · intro planned _ object hobject
    cases hobject

/-- **An edit can reach another node**: not every pass after it leaves the objects of a node alone
that it is not linked to, though the pass before it was clean. -/
theorem edits_not_spared : ¬ ∀ (t : Topology) (c : Classifier) (namespaceName node edited : String)
    (definition? : Option NodeDefinition) (nodeOverride? : Option NodeOverride) (links : List Link)
    (rendered rendered' : SortedMap String RenderedNode) (result : RenderedNode) (server : Server)
    (before events : List (Event Store)) (report report' : PassReport) (s u : Store),
      node ≠ edited → (∀ pair ∈ t.endpointPairs, otherEnd? node pair ≠ some edited) →
      t.endpointPairs.filter (touches node) = (links.filterMap Link.pair?).filter (touches node) →
      t.render c namespaceName = .ok rendered →
      (t.edit edited definition? nodeOverride? links).render c namespaceName = .ok rendered' →
      rendered.get? node = some result → server.Faithful t.name →
      (reconcileWorkloads t.name namespaceName (rendered.map fun _ node => node.plan)).Reaches
        server.Answers ∅ before (.done (.ok report)) s → report.isClean = true →
      (reconcileWorkloads t.name namespaceName (rendered'.map fun _ node => node.plan)).Reaches
        server.Answers s events (.done (.ok report')) u →
      ∀ event ∈ events, event.call.isWrite = true →
        ∀ key ∈ result.plan.keys, event.call.key? ≠ some key := by
  intro hspared
  obtain ⟨rendered, hrender, hentries⟩ := longNeighbours_renders
  obtain ⟨rendered', hrender', hentries'⟩ := longName_renders
  obtain ⟨⟨name, result⟩, hmem, hfirst⟩ := List.mem_map.1 (hentries ▸ List.mem_cons_self ..)
  obtain ⟨rfl, hships⟩ := Prod.mk.inj hfirst
  obtain ⟨⟨other, shown⟩, hother, hsecond⟩ :=
    List.mem_map.1 (hentries' ▸ List.mem_cons_of_mem _ List.mem_cons_self)
  obtain ⟨rfl, hships'⟩ := Prod.mk.inj hsecond
  have hresult : rendered.get? "r1" = some result := SortedMap.get?_eq_some_iff.2 hmem
  have hagrees : longNeighbours.AgreesAt longName "r1" :=
    longNeighbours_edit ▸ agreesAt_edit (some shipper) none (by decide) rfl
  have hkey := bundle_key_mem hrender hmem hships
  have hshared := bundle_key_mem hrender' hother hships'
  rw [← longName_bundleName] at hshared
  obtain ⟨before, report, s, hbefore, hclean, hconverged⟩ :=
    longNeighbours_converges hrender hentries
  obtain ⟨planned, hplanned, hplannedKey⟩ := List.mem_map.1 hkey
  obtain ⟨live, hlive, hown, -⟩ := hconverged.inSync planned
    (List.mem_flatMap.2 ⟨_, List.mem_map_of_mem hmem, hplanned⟩)
  have hcurrent := upToDate_of_converged hconverged (Group.mem_keysOf (group_mem hmem) hplanned)
    hlive
  rw [hplannedKey] at hlive hcurrent
  obtain ⟨events, report', u, hreach⟩ := Reconciles.exists_report
    (.workloads longName.name "lab" (rendered'.map fun _ node => node.plan))
    (Server.plain_available fun _ _ _ => False) (fun _ _ _ => id) s
  have hne : "r1-co" ≠ "r1" := by decide
  obtain ⟨event, hevent, hwrite, hcall⟩ := writes_of_agreesAt hagrees hrender hrender' hresult hkey
    hcurrent (Server.plain_faithful _) hlive hown hother hne hshared hreach
  exact hspared longNeighbours .bare "lab" "r1" "r1-co" (some shipper) none [] rendered rendered'
    result _ before events report report' s u (by decide) (by decide) rfl hrender hrender' hresult
    (Server.plain_faithful _) hbefore hclean hreach event hevent hwrite _ hkey hcall

end Topology

end NetLab
