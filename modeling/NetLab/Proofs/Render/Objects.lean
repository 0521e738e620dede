import NetLab.Proofs.Drift.Update
import NetLab.Proofs.Kube.Manifests
import NetLab.Proofs.Reconcile.Order
import NetLab.Render.Topology

/-!
# What rendering plans

Whatever a node is, its plan is fit for a pass (`NodePlan.WellFormed`): its objects are of the kinds
that the workload pass handles, carry the owner label of the topology, and come after the objects of
the same node that they depend on.  So it is for every plan of a topology that renders
(`Topology.wellFormed_of_render`).
-/

namespace NetLab

open Kube

/-- There is a result, if a check of it comes out true. -/
theorem exists_ok_of_any {ε α : Type} {result : Except ε α} {check : α → Bool}
    (h : result.toOption.any check = true) : ∃ value, result = .ok value ∧ check value = true := by
  cases result with
  | error error => cases h
  | ok value => exact ⟨value, rfl, h⟩

/-- **A plan that a workload pass can carry out.** -/
structure NodePlan.WellFormed (topology : String) (plan : NodePlan) : Prop where
  kinds : ∀ planned ∈ plan.objects, planned.object.kind ∈ Kind.workloads
  owned : ∀ planned ∈ plan.objects, planned.object.ownedBy topology = true
  inOrder : PlannedObject.InOrder plan.keys [] plan.objects
  closed : ∀ planned ∈ plan.objects, ∀ key ∈ planned.dependencies, key ∈ plan.keys

/-- The objects of all plans. -/
def NodePlan.allObjects (plans : SortedMap String NodePlan) : List PlannedObject :=
  plans.entries.flatMap fun entry => entry.2.objects

/-- The keys of the objects of some plans. -/
def NodePlan.keysOf (entries : List (String × NodePlan)) : List Key :=
  entries.flatMap fun entry => entry.2.keys

theorem NodePlan.keysOf_append (before : List (String × NodePlan)) (entry : String × NodePlan) :
    keysOf (before ++ [entry]) = keysOf before ++ entry.2.keys := by
  simp [keysOf]

theorem NodePlan.keysOf_entries (plans : SortedMap String NodePlan) :
    keysOf plans.entries = (allObjects plans).map PlannedObject.key := by
  rw [keysOf, allObjects, List.map_flatMap]
  rfl

/-! ## The objects of a node -/

namespace NodeContext

/-- The object that runs the node: what its builder makes (`workload?_eq`). -/
def workload (ctx : NodeContext) (defaults : VmDefaults) (bundle? : Option ConfigBundle) :
    Resource :=
  match ctx.classification.workloadType with
  | .container => ctx.deployment bundle?
  | .vm => ctx.virtualMachine defaults bundle?

/-- The objects of the node, each after those it needs. -/
def objects (ctx : NodeContext) (defaults : VmDefaults) (bundle? : Option ConfigBundle) :
    List PlannedObject :=
  ctx.objectsAround bundle? (ctx.workload defaults bundle?)

variable (ctx : NodeContext) (defaults : VmDefaults) (bundle? : Option ConfigBundle)

/-! ### Where the manifests have their parts -/

theorem podTemplate_spec :
    (ctx.podTemplate bundle?).get "spec" = ctx.podSpec bundle? := by
  simp [podTemplate, Json.get]

/-- The pod of a Deployment is in its template. -/
theorem path_deployment (names : List String) :
    ((ctx.deployment bundle?).get "spec").path ("template" :: "spec" :: names) =
      (ctx.podSpec bundle?).path names := by
  have htemplate : ((ctx.deployment bundle?).get "spec").get "template" =
      ctx.podTemplate bundle? := by
    simp [deployment, Json.get]
  rw [Json.path_cons, htemplate, Json.path_cons, podTemplate_spec]

theorem podSpec_containers :
    (ctx.podSpec bundle?).get "containers" = .array [ctx.container bundle?] := by
  simp [podSpec, Json.get]

theorem podSpec_volumes : (ctx.podSpec bundle?).get "volumes" =
    (bundle?.map fun bundle => Json.array [bundle.volume]).getD .null := by
  simp [podSpec, Json.get]

theorem machineTemplate_spec : (ctx.machineTemplate defaults bundle?).get "spec" =
    ctx.machineSpec defaults bundle? := by
  simp [machineTemplate, Json.get]

/-- So is the pod of a VirtualMachine. -/
theorem path_virtualMachine (names : List String) :
    ((ctx.virtualMachine defaults bundle?).get "spec").path ("template" :: "spec" :: names) =
      (ctx.machineSpec defaults bundle?).path names := by
  have htemplate : ((ctx.virtualMachine defaults bundle?).get "spec").get "template" =
      ctx.machineTemplate defaults bundle? := by
    simp [virtualMachine, Json.get]
  rw [Json.path_cons, htemplate, Json.path_cons, machineTemplate_spec]

theorem machineSpec_domain :
    (ctx.machineSpec defaults bundle?).get "domain" = ctx.domain defaults bundle? := by
  simp [machineSpec, Json.get]

theorem machineSpec_volumes : (ctx.machineSpec defaults bundle?).get "volumes" =
    .array (volumes ctx.node.image
      (CloudInit.userData ctx.hostname ctx.node.startupConfig defaults.sshAuthorizedKeys)
      bundle?) := by
  simp [machineSpec, Json.get]

theorem domain_devices : (ctx.domain defaults bundle?).get "devices" =
    .ofMembers [("disks", .array (disks bundle?)), ("interfaces", .array ctx.interfaces)] := by
  simp [domain, Json.get]

theorem domain_resources : (ctx.domain defaults bundle?).get "resources" =
    (MachineSize.ofNode ctx.node defaults).requirements := by
  simp [domain, Json.get]

/-- The requirements of the machine, where its pod has them. -/
theorem machineSpec_resources : (ctx.machineSpec defaults bundle?).path ["domain", "resources"] =
    (MachineSize.ofNode ctx.node defaults).requirements := by
  rw [Json.path_cons, machineSpec_domain]
  exact ctx.domain_resources defaults bundle?

/-! ### What the builders make -/

/-- The manifest of a machine describes the machine. -/
theorem machine?_eq :
    ctx.machine? defaults bundle? = some (ctx.virtualMachine defaults bundle?) := by
  have hreserved (name : String) (h : Resource.isReserved name = true) :
      Assoc.find? name (ctx.virtualMachine defaults bundle?).body = none := by
    have hne : name ≠ "spec" := by
      rintro rfl
      exact absurd h (by decide)
    simp [virtualMachine, Resource.ofBody, hne, Assoc.ofList, Assoc.insert, Assoc.find?]
  exact Resource.ofJson?_toJson rfl rfl hreserved

/-- **Every workload can be built**, whatever the node's name, labels, limits and contents are. -/
theorem workload?_eq : ctx.workload? defaults bundle? = some (ctx.workload defaults bundle?) := by
  unfold workload? workload
  cases ctx.classification.workloadType with
  | container => rfl
  | vm => exact ctx.machine?_eq defaults bundle?

theorem label?_topology :
    ctx.labels.get? Labels.topology = ctx.node.labels.get? Labels.topology := by
  have hne : Labels.topology ≠ Labels.workloadType := by decide
  simp [labels, hne]

theorem workload_kind :
    (ctx.workload defaults bundle?).kind = ctx.classification.workloadType.kind := by
  unfold workload
  cases ctx.classification.workloadType <;> rfl

theorem workload_metadata : (ctx.workload defaults bundle?).metadata = ctx.workloadMetadata := by
  unfold workload
  cases ctx.classification.workloadType <;> rfl

/-- What every object of the node is: the ConfigMap, the workload, which depends on it, or the
Service, which depends on the workload. -/
theorem mem_objects {planned : PlannedObject} (h : planned ∈ ctx.objects defaults bundle?) :
    (∃ bundle, bundle? = some bundle ∧
        planned = .free (configMap (ctx.metadata bundle.name) bundle)) ∨
      planned = ⟨ctx.workload defaults bundle?,
        (bundle?.map fun bundle => ⟨.configMap, bundle.name⟩).toList⟩ ∨
      planned = ⟨ctx.service, [(ctx.workload defaults bundle?).key]⟩ := by
  unfold objects objectsAround at h
  cases bundle? with
  | none => exact Or.inr (by simpa using h)
  | some bundle =>
    rcases (by simpa using h : _ ∨ _ ∨ _) with rfl | rfl | rfl
    · exact Or.inl ⟨bundle, rfl, rfl⟩
    · exact Or.inr (Or.inl rfl)
    · exact Or.inr (Or.inr rfl)

theorem kind_mem_workloads {planned : PlannedObject}
    (h : planned ∈ ctx.objects defaults bundle?) : planned.object.kind ∈ Kind.workloads := by
  rcases ctx.mem_objects defaults bundle? h with ⟨bundle, -, rfl⟩ | rfl | rfl
  · exact (by decide : Kind.configMap ∈ Kind.workloads)
  · rw [workload_kind]
    cases ctx.classification.workloadType <;> decide
  · exact (by decide : Kind.service ∈ Kind.workloads)

/-- All objects of the node have the labels of its context. -/
theorem label?_of_mem_objects {planned : PlannedObject}
    (h : planned ∈ ctx.objects defaults bundle?) (key : String) :
    planned.object.label? key = ctx.labels.get? key := by
  have hlabels : planned.object.metadata.labels = some ctx.labels := by
    rcases ctx.mem_objects defaults bundle? h with ⟨bundle, -, rfl⟩ | rfl | rfl
    · rfl
    · rw [workload_metadata]
      rfl
    · rfl
  rw [Resource.label?, Meta.label?, hlabels, Option.bind_some]

theorem ownedBy_of_mem_objects {planned : PlannedObject} {topology : String}
    (hnode : ctx.node.labels.get? Labels.topology = some topology)
    (h : planned ∈ ctx.objects defaults bundle?) : planned.object.ownedBy topology = true := by
  simp [Resource.ownedBy, ctx.label?_of_mem_objects defaults bundle? h, label?_topology, hnode]

theorem inOrder_objects : PlannedObject.InOrder
    ((ctx.objects defaults bundle?).map PlannedObject.key) [] (ctx.objects defaults bundle?) := by
  cases bundle? <;>
    simp [objects, objectsAround, PlannedObject.InOrder, PlannedObject.isPlaceable,
      PlannedObject.free, PlannedObject.key]

theorem closed_objects : ∀ planned ∈ ctx.objects defaults bundle?, ∀ key ∈ planned.dependencies,
    key ∈ (ctx.objects defaults bundle?).map PlannedObject.key := by
  cases bundle? <;> simp [objects, objectsAround, PlannedObject.free, PlannedObject.key]

theorem wellFormed_objects {topology : String} (type : WorkloadType)
    (hnode : ctx.node.labels.get? Labels.topology = some topology) :
    NodePlan.WellFormed topology ⟨type, ctx.objects defaults bundle?⟩ where
  kinds _ := ctx.kind_mem_workloads defaults bundle?
  owned _ := ctx.ownedBy_of_mem_objects defaults bundle? hnode
  inOrder := ctx.inOrder_objects defaults bundle?
  closed := ctx.closed_objects defaults bundle?

end NodeContext

/-! ## Whole topologies -/

theorem RenderedNode.forall_plan {rendered : SortedMap String RenderedNode}
    {property : NodePlan → Prop} (h : ∀ entry ∈ rendered.entries, property entry.2.plan) :
    ∀ entry ∈ (rendered.map fun _ node => node.plan).entries, property entry.2 := by
  intro entry hmem
  obtain ⟨node, hnode, rfl⟩ := List.mem_map.1 hmem
  exact h node hnode

namespace NodeConfig

@[simp]
theorem withMode_name (node : NodeConfig) (mode : ExecutionMode) :
    (node.withMode mode).name = node.name := by
  cases mode <;> rfl

@[simp]
theorem withPlugin_name (node : NodeConfig) (cni : Option String) :
    (node.withPlugin cni).name = node.name := by
  cases cni <;> rfl

@[simp]
theorem withOverride_name (node : NodeConfig) (nodeOverride? : Option NodeOverride) :
    (node.withOverride nodeOverride?).name = node.name := by
  cases nodeOverride? <;> simp [withOverride]

theorem label_topology_withIdentity (node : NodeConfig) (topology : String) :
    (node.withIdentity topology).labels.get? Labels.topology = some topology := by
  have hnode : Labels.topology ≠ Labels.node := by decide
  have hkind : Labels.topology ≠ Labels.nodeKind := by decide
  unfold withIdentity
  split <;> simp [Labels.identity, hnode, hkind]

end NodeConfig

namespace Topology

variable {t : Topology} {c : Classifier} {namespaceName : String}

theorem nodeConfig_name (t : Topology) (name : String) (definition : NodeDefinition) :
    (t.nodeConfig name definition).name = name := by
  simp [nodeConfig, NodeConfig.withIdentity, NodeConfig.ofImage]

theorem nodeConfig_label_topology (t : Topology) (name : String) (definition : NodeDefinition) :
    (t.nodeConfig name definition).labels.get? Labels.topology = some t.name :=
  NodeConfig.label_topology_withIdentity _ t.name

/-- What the objects of a node of the topology have in common. -/
def context (t : Topology) (c : Classifier) (namespaceName name : String)
    (definition : NodeDefinition) : NodeContext :=
  let node := t.nodeConfig name definition
  ⟨t.name, namespaceName, node, t.workloadName name, c.classify node⟩

/-- A rendered node, put together from its context and its bundle. -/
def IsRendered (t : Topology) (c : Classifier) (namespaceName name : String)
    (definition : NodeDefinition) (bundle? : Option ConfigBundle) (rendered : RenderedNode) : Prop :=
  let ctx := t.context c namespaceName name definition
  ConfigBundle.ofNode ctx.node (t.bundleName name) = .ok bundle? ∧
    rendered = ⟨ctx.node, ctx.classification, ctx.objects t.native.vmDefaults bundle?⟩

theorem IsRendered.config_eq {name : String} {definition : NodeDefinition}
    {bundle? : Option ConfigBundle} {rendered : RenderedNode}
    (h : t.IsRendered c namespaceName name definition bundle? rendered) :
    rendered.config = t.nodeConfig name definition := by
  rw [h.2]
  rfl

theorem IsRendered.classification_eq {name : String} {definition : NodeDefinition}
    {bundle? : Option ConfigBundle} {rendered : RenderedNode}
    (h : t.IsRendered c namespaceName name definition bundle? rendered) :
    rendered.classification = c.classify rendered.config := by
  rw [h.2]
  rfl

theorem isRendered_of_renderNode {name : String} {definition : NodeDefinition}
    {rendered : RenderedNode}
    (h : t.renderNode c namespaceName (t.workloadName name) (t.nodeConfig name definition) =
      .ok rendered) : ∃ bundle?, t.IsRendered c namespaceName name definition bundle? rendered := by
  unfold renderNode at h
  rw [nodeConfig_name] at h
  simp only [NodeContext.workload?_eq] at h
  split at h
  · cases h
  · rename_i bundle? hbundle
    exact ⟨bundle?, hbundle, (Except.ok.inj h).symm⟩

/-- What it takes to render a node and those after it: a name that is free, and no fault in any. -/
theorem renderNodes_cons_ok {taken : StringMap} {name : String} {definition : NodeDefinition}
    {rest : List (String × NodeDefinition)} {rendered : List (String × RenderedNode)}
    (h : t.renderNodes c namespaceName taken ((name, definition) :: rest) = .ok rendered) :
    taken.get? (t.workloadName name) = none ∧
      ∃ first others,
        t.renderNode c namespaceName (t.workloadName name) (t.nodeConfig name definition) =
          .ok first ∧
        t.renderNodes c namespaceName (taken.insert (t.workloadName name) name) rest =
          .ok others ∧
        rendered = (name, first) :: others := by
  simp only [renderNodes] at h
  split at h
  · cases h
  · rename_i hfree
    cases hnode : t.renderNode c namespaceName (t.workloadName name)
      (t.nodeConfig name definition) with
    | error e => simp [hnode, bind, Except.bind] at h
    | ok first =>
      cases hothers : t.renderNodes c namespaceName (taken.insert (t.workloadName name) name)
        rest with
      | error e => simp [hnode, hothers, bind, Except.bind] at h
      | ok others =>
        refine ⟨hfree, first, others, rfl, rfl, ?_⟩
        simpa [hnode, hothers, bind, Except.bind, pure, Except.pure] using h.symm

theorem isRendered_of_mem_renderNodes {taken : StringMap} {nodes : List (String × NodeDefinition)}
    {rendered : List (String × RenderedNode)}
    (h : t.renderNodes c namespaceName taken nodes = .ok rendered) :
    ∀ entry ∈ rendered, ∃ definition bundle?, (entry.1, definition) ∈ nodes ∧
      t.IsRendered c namespaceName entry.1 definition bundle? entry.2 := by
  induction nodes generalizing taken rendered with
  | nil =>
    obtain rfl := Except.ok.inj h
    exact fun entry hmem => (List.not_mem_nil hmem).elim
  | cons head rest ih =>
    obtain ⟨name, definition⟩ := head
    obtain ⟨-, first, others, hnode, hothers, rfl⟩ := renderNodes_cons_ok h
    intro entry hmem
    rcases List.mem_cons.1 hmem with rfl | hmem
    · obtain ⟨bundle?, hrendered⟩ := isRendered_of_renderNode hnode
      exact ⟨definition, bundle?, List.mem_cons_self, hrendered⟩
    · obtain ⟨definition, bundle?, hdefinition, hrendered⟩ := ih hothers entry hmem
      exact ⟨definition, bundle?, List.mem_cons_of_mem _ hdefinition, hrendered⟩

/-- **Every rendered node** has one of the definitions, and is rendered in its own context. -/
theorem isRendered_of_renderDefinitions {definitions : SortedMap String NodeDefinition}
    {rendered : SortedMap String RenderedNode}
    (h : t.renderDefinitions c namespaceName definitions = .ok rendered) :
    ∀ entry ∈ rendered.entries, ∃ definition bundle?, (entry.1, definition) ∈ definitions.entries ∧
      t.IsRendered c namespaceName entry.1 definition bundle? entry.2 := by
  unfold renderDefinitions at h
  cases hnodes : t.renderNodes c namespaceName ∅ definitions.entries with
  | error e => simp [hnodes, Except.map] at h
  | ok nodes =>
    obtain rfl : SortedMap.ofList nodes = rendered := by simpa [hnodes, Except.map] using h
    exact fun entry hmem => isRendered_of_mem_renderNodes hnodes entry (Assoc.mem_of_mem_ofList hmem)

/-- Every rendered node of a topology is one of its nodes. -/
theorem isRendered_of_render {rendered : SortedMap String RenderedNode}
    (h : t.render c namespaceName = .ok rendered) :
    ∀ entry ∈ rendered.entries, ∃ definition bundle?, (entry.1, definition) ∈ t.nodes.entries ∧
      t.IsRendered c namespaceName entry.1 definition bundle? entry.2 :=
  isRendered_of_renderDefinitions h

theorem names_of_renderNodes {taken : StringMap} {nodes : List (String × NodeDefinition)}
    {rendered : List (String × RenderedNode)}
    (h : t.renderNodes c namespaceName taken nodes = .ok rendered) :
    rendered.map Prod.fst = nodes.map Prod.fst := by
  induction nodes generalizing taken rendered with
  | nil =>
    obtain rfl := Except.ok.inj h
    rfl
  | cons head rest ih =>
    obtain ⟨name, definition⟩ := head
    obtain ⟨-, first, others, -, hothers, rfl⟩ := renderNodes_cons_ok h
    rw [List.map_cons, List.map_cons, ih hothers]

/-- **A topology that renders** has a result for each node that it declares. -/
theorem contains_render {rendered : SortedMap String RenderedNode}
    (h : t.render c namespaceName = .ok rendered) (node : String) :
    rendered.contains node = t.nodes.contains node := by
  unfold render renderDefinitions at h
  cases hnodes : t.renderNodes c namespaceName ∅ t.nodes.entries with
  | error e => simp [hnodes, Except.map] at h
  | ok nodes =>
    obtain rfl : SortedMap.ofList nodes = rendered := by simpa [hnodes, Except.map] using h
    have hkeys : t.nodes.entries.map Prod.fst = t.nodes.keys := rfl
    rw [Bool.eq_iff_iff, SortedMap.contains_ofList_iff, names_of_renderNodes hnodes, hkeys,
      SortedMap.mem_keys_iff]

/-- **Every rendered plan can be carried out.** -/
theorem wellFormed_of_render {rendered : SortedMap String RenderedNode}
    (h : t.render c namespaceName = .ok rendered) :
    ∀ entry ∈ (rendered.map fun _ node => node.plan).entries, entry.2.WellFormed t.name := by
  refine RenderedNode.forall_plan fun entry hmem => ?_
  obtain ⟨definition, bundle?, -, -, hrendered⟩ := isRendered_of_render h entry hmem
  rw [hrendered]
  exact NodeContext.wellFormed_objects _ _ _ _ (t.nodeConfig_label_topology entry.1 definition)

end Topology

/-! ## A topology of one node -/

/-- A classifier without tables, for which every node that asks for nothing else is a container. -/
def Classifier.bare : Classifier := .ofTables ⟨∅, [], [], ∅, ∅, [], [], []⟩

/-- The topology `lab` with a node `r1`. -/
def oneNode : Topology := (Topology.ofName "lab").withNode "r1" (.ofImage "router" "frr")

end NetLab
