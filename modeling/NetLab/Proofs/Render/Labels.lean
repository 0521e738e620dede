import NetLab.Proofs.Render.Layers

/-!
# Labels that identify a node

Five labels say what an object is about: that the operator manages it, the topology, the node, the
kind of the node and what the node runs as.  They are written over whatever labels a user gives the
node, in two places: the configuration of the node gets its identity, the objects of the node get the
workload type.  So the objects of a node, and the pods that they run, tell who they belong to
whatever the user writes (`Topology.identify_labels`).

Only a node without a kind has nothing to write over a label that the user gives it under the key of
the kind.  There, and nowhere else, objects have a label that they should not have
(`Topology.identified_exactly`).
-/

namespace NetLab

open Kube

/-! ## The labels -/

/-- **Labels that identify a node.** -/
structure Kube.Labels.Identify (topologyName nodeName : String) (kind? : Option String)
    (type : WorkloadType) (label? : String → Option String) : Prop where
  managedBy : label? Labels.managedBy = some Labels.manager
  topology : label? Labels.topology = some topologyName
  node : label? Labels.node = some nodeName
  kind : label? Labels.nodeKind = kind?
  workloadType : label? Labels.workloadType = some type.name

/-- A label that an object gives to the pods it runs. -/
def Kube.Resource.podLabel? (r : Resource) (key : String) : Option String :=
  (r.podLabels.get? key).bind Json.asString?

/-- The kind of a node, if it has one. -/
def NodeDefinition.kind? (definition : NodeDefinition) : Option String :=
  if definition.kind = "" then none else some definition.kind

/-- **The objects of a node identify it**, and so do the pods that they run. -/
structure RenderedNode.Identifies (rendered : RenderedNode) (topologyName nodeName : String)
    (kind? : Option String) : Prop where
  objects : ∀ planned ∈ rendered.objects,
    Labels.Identify topologyName nodeName kind? rendered.classification.workloadType
      planned.object.label?
  pods : ∀ planned ∈ rendered.objects, planned.object.runsNode = true →
    Labels.Identify topologyName nodeName kind? rendered.classification.workloadType
      planned.object.podLabel?

variable {topologyName nodeName : String} {kind? : Option String} {type : WorkloadType}

/-- The label that ties the pod of a machine to it is none of them. -/
theorem Kube.Labels.Identify.congr {label? label'? : String → Option String}
    (h : Identify topologyName nodeName kind? type label?)
    (heq : ∀ key, key ≠ Labels.virtualMachine → label'? key = label? key) :
    Identify topologyName nodeName kind? type label'? where
  managedBy := (heq _ (by decide)).trans h.managedBy
  topology := (heq _ (by decide)).trans h.topology
  node := (heq _ (by decide)).trans h.node
  kind := (heq _ (by decide)).trans h.kind
  workloadType := (heq _ (by decide)).trans h.workloadType

/-- Of the environment of a node, a classification looks at the entry that asks for a type; at its
labels it does not look. -/
theorem Classifier.classify_congr (c : Classifier) {node other : NodeConfig}
    (hname : other.name = node.name) (himage : other.image = node.image)
    (hkind : other.kind = node.kind)
    (hentry : other.environment.get? Labels.executionModeEntry =
      node.environment.get? Labels.executionModeEntry) : c.classify other = c.classify node := by
  simp only [classify, levels, hname, himage, hkind, hentry]

/-! ## Objects in their context -/

namespace NodeContext

variable (ctx : NodeContext) (defaults : VmDefaults) (bundle? : Option ConfigBundle)

theorem exists_mem_objects : ∃ planned, planned ∈ ctx.objects defaults bundle? :=
  ⟨⟨ctx.service, _⟩, List.mem_append_right _ (List.mem_cons_of_mem _ List.mem_cons_self)⟩

theorem podLabel?_workload (key : String) :
    (ctx.workload defaults bundle?).podLabel? key = ctx.podLabels.get? key := by
  rw [Resource.podLabel?, podLabels_workload, Json.get?_ofStringMap]
  cases ctx.podLabels.get? key <;> rfl

/-- What identifies a node in the labels of its context does so in its objects. -/
theorem identifies_objects
    (h : Labels.Identify topologyName nodeName kind? ctx.classification.workloadType
      ctx.labels.get?) :
    RenderedNode.Identifies ⟨ctx.node, ctx.classification, ctx.objects defaults bundle?⟩
      topologyName nodeName kind? where
  objects planned hmem := h.congr fun key _ => ctx.label?_of_mem_objects defaults bundle? hmem key
  pods planned hmem hruns := by
    rw [ctx.eq_workload_of_runsNode defaults bundle? hmem hruns]
    exact h.congr fun key hkey =>
      (ctx.podLabel?_workload defaults bundle? key).trans (ctx.get?_podLabels hkey)

end NodeContext

/-! ## Topologies -/

namespace Topology

variable {t : Topology} {c : Classifier} {namespaceName : String}

/-- **Every label that identifies a node is written over those of the user**, but for the kind of a
node that has none. -/
theorem identify_labels (t : Topology) (c : Classifier) (namespaceName name : String)
    (definition : NodeDefinition) :
    Labels.Identify t.name name (definition.kind?.or (definition.labels.get? Labels.nodeKind))
      (t.context c namespaceName name definition).classification.workloadType
      (t.context c namespaceName name definition).labels.get? := by
  have hnode (key : String) (hkey : key ≠ Labels.workloadType) :
      (t.context c namespaceName name definition).labels.get? key =
        (Labels.identity? t.name name definition.kind key).or
          ((single? Labels.networkingMode t.native.cni key).or
            ((single? Labels.executionMode (t.pinnedMode? name) key).or
              (definition.labels.get? key))) := by
    rw [NodeContext.labels, SortedMap.get?_insert_of_ne hkey]
    exact (t.nodeConfig_layered name definition).labels key
  exact {
    managedBy := by simp (disch := decide) [hnode, Labels.identity?, single?_of_ne]
    topology := by simp (disch := decide) [hnode, Labels.identity?, single?_of_ne]
    node := by simp (disch := decide) [hnode, Labels.identity?, single?_of_ne]
    kind := by simp (disch := decide) [hnode, Labels.identity?, single?_of_ne, NodeDefinition.kind?]
    workloadType := by simp [NodeContext.labels] }

variable {definitions : SortedMap String NodeDefinition} {rendered : SortedMap String RenderedNode}
  {name : String} {definition : NodeDefinition} {node : RenderedNode} {bundle? : Option ConfigBundle}

theorem identifies_of_isRendered (h : t.IsRendered c namespaceName name definition bundle? node) :
    node.Identifies t.name name (definition.kind?.or (definition.labels.get? Labels.nodeKind)) := by
  obtain ⟨-, rfl⟩ := h
  exact NodeContext.identifies_objects _ _ _ (t.identify_labels c namespaceName name definition)

/-- The label of the kind is the right one, unless the node has no kind and the user gives it one. -/
theorem identifies_kind_iff (h : t.IsRendered c namespaceName name definition bundle? node) :
    node.Identifies t.name name definition.kind? ↔
      definition.kind ≠ "" ∨ definition.labels.get? Labels.nodeKind = none := by
  have hlabels := identifies_of_isRendered h
  have hkind : definition.kind?.or (definition.labels.get? Labels.nodeKind) = definition.kind? ↔
      definition.kind ≠ "" ∨ definition.labels.get? Labels.nodeKind = none := by
    unfold NodeDefinition.kind?
    by_cases hempty : definition.kind = "" <;> simp [hempty]
  rw [← hkind]
  constructor
  · intro hright
    -- A node has a workload at least, which has one label of the kind only.
    obtain ⟨planned, hmem⟩ : ∃ planned, planned ∈ node.objects := by
      rw [h.2]
      exact NodeContext.exists_mem_objects _ _ _
    exact (hlabels.objects planned hmem).kind.symm.trans (hright.objects planned hmem).kind
  · intro heq
    rwa [heq] at hlabels

/-- How the objects of a rendered node identify it. -/
structure IdentifiedExactly (t : Topology) (c : Classifier) (name : String)
    (definition : NodeDefinition) (node : RenderedNode) : Prop where
  /-- Whatever the user writes: a label of the user's own counts only for a kind that is missing. -/
  labels : node.Identifies t.name name
    (definition.kind?.or (definition.labels.get? Labels.nodeKind))
  kind_iff : node.Identifies t.name name definition.kind? ↔
    definition.kind ≠ "" ∨ definition.labels.get? Labels.nodeKind = none
  classified : node.classification = c.classify (t.nodeConfig name definition)
  /-- Of all that a user writes beside the image and the kind, only the entry that asks for a type
  has a say in the type. -/
  type_eq : ∀ other : NodeConfig, other.name = name → other.image = definition.image →
    other.kind = definition.kind →
    other.environment.get? Labels.executionModeEntry =
      node.config.environment.get? Labels.executionModeEntry →
    c.classify other = node.classification

/-- **Nobody can forge what identifies a node**, but for the kind of a node that has none. -/
theorem identified_exactly (h : t.renderDefinitions c namespaceName definitions = .ok rendered) :
    ∀ entry ∈ rendered.entries, ∃ definition, definitions.get? entry.1 = some definition ∧
      t.IdentifiedExactly c entry.1 definition entry.2 := by
  intro entry hmem
  obtain ⟨definition, bundle?, hdefinition, hrendered⟩ :=
    isRendered_of_renderDefinitions h entry hmem
  have hclassified : entry.2.classification = c.classify (t.nodeConfig entry.1 definition) :=
    hrendered.config_eq ▸ hrendered.classification_eq
  refine ⟨definition, SortedMap.get?_eq_some_iff.2 hdefinition,
    identifies_of_isRendered hrendered, identifies_kind_iff hrendered, hclassified, ?_⟩
  intro other hname himage hkind hentry
  have hlayers := t.nodeConfig_layered entry.1 definition
  rw [hclassified]
  exact c.classify_congr (hname.trans hlayers.name.symm) (himage.trans hlayers.image.symm)
    (hkind.trans hlayers.kind.symm) (hrendered.config_eq ▸ hentry)

/-! A node that is given false labels in every way there is. -/

/-- What `r1` of `lab` would like to be taken for. -/
def falseLabels : StringMap :=
  .ofList [(Labels.managedBy, "someone"), (Labels.topology, "core"), (Labels.node, "r2"),
    (Labels.nodeKind, "vyos"), (Labels.workloadType, "vm")]

/-- A node of some kind with false labels, and an environment like them. -/
def forger (kind : String) : NodeDefinition :=
  { NodeDefinition.ofImage kind "frr" with env := falseLabels, labels := falseLabels }

/-- The topology `lab` with the node `r1`, whose override is false as well. -/
def forging (kind : String) : Topology :=
  { (Topology.ofName "lab").withNode "r1" (forger kind) with
    native := { (default : NativeExecution) with
      nodeOverrides := .ofList [("r1", { (default : NodeOverride) with config := falseLabels })] } }

theorem nodes_forging (kind : String) : (forging kind).nodes.entries = [("r1", forger kind)] := rfl

theorem forging_renders (kind : String) :
    ∃ rendered, (forging kind).render .bare "sim" = .ok rendered ∧ rendered.keys = ["r1"] :=
  exists_render_of_single (nodes_forging kind) rfl

theorem eq_forger {kind name : String} {definition : NodeDefinition}
    (h : (forging kind).nodes.get? name = some definition) : definition = forger kind := by
  have hmem := SortedMap.get?_eq_some_iff.1 h
  rw [nodes_forging, List.mem_singleton] at hmem
  exact congrArg Prod.snd hmem

theorem forging_is_identified : ∃ rendered, (forging "router").render .bare "sim" = .ok rendered ∧
    rendered.keys = ["r1"] ∧
      ∀ entry ∈ rendered.entries, entry.2.Identifies "lab" entry.1 (some "router") := by
  obtain ⟨rendered, hrender, hkeys⟩ := forging_renders "router"
  refine ⟨rendered, hrender, hkeys, fun entry hmem => ?_⟩
  obtain ⟨definition, hdefinition, hexact⟩ := identified_exactly hrender entry hmem
  obtain rfl := eq_forger hdefinition
  have hkind : (forger "router").kind ≠ "" := by decide
  exact hexact.kind_iff.2 (Or.inl hkind)

/-- **A node without a kind can be given one by a label**, and all its objects carry it. -/
theorem not_every_node_identified : ¬ ∀ (t : Topology) (c : Classifier) (namespaceName : String)
    (definitions : SortedMap String NodeDefinition) (rendered : SortedMap String RenderedNode),
    t.renderDefinitions c namespaceName definitions = .ok rendered →
      ∀ entry ∈ rendered.entries, ∀ definition, definitions.get? entry.1 = some definition →
        entry.2.Identifies t.name entry.1 definition.kind? := by
  intro hall
  obtain ⟨rendered, hrender, hkeys⟩ := forging_renders ""
  have hmem : "r1" ∈ rendered.keys := hkeys ▸ List.mem_cons_self
  obtain ⟨entry, hentry, -⟩ := List.mem_map.1 hmem
  obtain ⟨definition, bundle?, hdefinition, hrendered⟩ :=
    isRendered_of_renderDefinitions hrender entry hentry
  have hget := SortedMap.get?_eq_some_iff.2 hdefinition
  obtain rfl := eq_forger hget
  have hlabel : (forger "").labels.get? Labels.nodeKind = some "vyos" := by
    simp [forger, falseLabels, Labels.nodeKind, Labels.workloadType]
  rcases (identifies_kind_iff hrendered).1 (hall _ _ _ _ _ hrender entry hentry _ hget) with
    hkind | hfree
  · exact hkind rfl
  · rw [hlabel] at hfree
    cases hfree

end Topology

end NetLab
