import NetLab.Policy.Links
import NetLab.Proofs.Json.Exact
import NetLab.Proofs.Render.Objects

/-!
# What the metadata of rendered objects tells

The labels of a rendered object say which node of which topology it belongs to, and what the node
runs as; the annotation of a workload says why.  Nothing else is in the metadata beside the name
and the namespace, so two rendered objects of one name with the same labels, of which the live one
has the annotations of the desired one, have the same metadata.
-/

namespace NetLab

open Kube

namespace Kube.Drift

/-- Metadata in which no drift is found has the same labels. -/
theorem labels_of_metadata {desired live : Meta} (h : metadata desired live = false) :
    desired.labels.getD ∅ = live.labels.getD ∅ := by
  simp only [metadata, Bool.or_eq_false_iff, bne_eq_false_iff_eq] at h
  exact h.1

/-- Metadata in which no drift is found has all annotations. -/
theorem annotations_of_metadata {desired live : Meta} (h : metadata desired live = false)
    {name value : String} (hdesired : (desired.annotations.getD ∅).get? name = some value) :
    (live.annotations.getD ∅).get? name = some value := by
  simp only [metadata, Bool.or_eq_false_iff, Bool.not_eq_false', List.all_eq_true,
    decide_eq_true_eq] at h
  exact h.2 (name, value) (SortedMap.get?_eq_some_iff.1 hdesired)

end Kube.Drift

namespace Kube.Resource

/-- In objects in which no drift is found, none is found in their metadata. -/
theorem metadata_of_settled {desired live : Resource} (h : desired.needsUpdate live = false) :
    Drift.metadata desired.metadata live.metadata = false := by
  simp only [needsUpdate, Bool.or_eq_false_iff] at h
  exact h.1

/-- In objects in which no drift is found, none is found in what their kind owns. -/
theorem drift_of_settled {desired live : Resource} (h : desired.needsUpdate live = false) :
    (match desired.kind with
      | .deployment => Drift.deployment desired live
      | .service => Drift.service desired live
      | .configMap => Drift.configMap desired live
      | .virtualMachine => Drift.virtualMachine desired live
      | .networkPolicy => Drift.networkPolicy desired live) = false := by
  simp only [needsUpdate, Bool.or_eq_false_iff] at h
  obtain ⟨-, hdrift⟩ := h
  split at hdrift
  · exact hdrift
  · cases hdrift

theorem label?_of_settled {desired live : Resource} (h : desired.needsUpdate live = false)
    (name : String) : desired.label? name = live.label? name := by
  rw [label?, label?, Meta.label?_eq, Meta.label?_eq,
    Drift.labels_of_metadata (metadata_of_settled h)]

end Kube.Resource

namespace NodeConfig

@[simp]
theorem withMode_annotations (node : NodeConfig) (mode : ExecutionMode) :
    (node.withMode mode).annotations = node.annotations := by
  cases mode <;> rfl

@[simp]
theorem withPlugin_annotations (node : NodeConfig) (cni : Option String) :
    (node.withPlugin cni).annotations = node.annotations := by
  cases cni <;> rfl

@[simp]
theorem withOverride_annotations (node : NodeConfig) (nodeOverride? : Option NodeOverride) :
    (node.withOverride nodeOverride?).annotations = node.annotations := by
  cases nodeOverride? <;> simp [withOverride]

theorem label_node_withIdentity (node : NodeConfig) (topology : String) :
    (node.withIdentity topology).labels.get? Labels.node = some node.name := by
  have hkind : Labels.node ≠ Labels.nodeKind := by decide
  unfold withIdentity
  split <;> simp [Labels.identity, hkind]

end NodeConfig

namespace NodeContext

/-- **A context in which a topology renders a node**: the labels of the node identify it, and it
has no annotations. -/
structure Identified (ctx : NodeContext) : Prop where
  topology : ctx.node.labels.get? Labels.topology = some ctx.topology
  node : ctx.node.labels.get? Labels.node = some ctx.node.name
  annotations : ctx.node.annotations = ∅

/-- Two contexts of one node, with the same labels. -/
structure Agrees (ctx ctx' : NodeContext) : Prop where
  topology : ctx.topology = ctx'.topology
  node : ctx.node.name = ctx'.node.name
  labels : ctx.labels = ctx'.labels

variable {ctx ctx' : NodeContext}

theorem label?_node : ctx.labels.get? Labels.node = ctx.node.labels.get? Labels.node := by
  have hne : Labels.node ≠ Labels.workloadType := by decide
  simp [labels, hne]

theorem agrees_of_labels (h : ctx.Identified) (h' : ctx'.Identified)
    (hlabels : ctx.labels = ctx'.labels) : ctx.Agrees ctx' where
  topology := by
    have heq := congrArg (·.get? Labels.topology) hlabels
    simpa only [label?_topology, h.topology, h'.topology, Option.some.injEq] using heq
  node := by
    have heq := congrArg (·.get? Labels.node) hlabels
    simpa only [label?_node, h.node, h'.node, Option.some.injEq] using heq
  labels := hlabels

namespace Agrees

theorem selector (h : ctx.Agrees ctx') : ctx.selector = ctx'.selector := by
  rw [NodeContext.selector, NodeContext.selector, h.topology, h.node]

theorem hostname (h : ctx.Agrees ctx') : ctx.hostname = ctx'.hostname := by
  rw [NodeContext.hostname, NodeContext.hostname, h.node]

theorem metadata (h : ctx.Agrees ctx') (hnamespace : ctx.namespaceName = ctx'.namespaceName)
    (name : String) : ctx.metadata name = ctx'.metadata name := by
  rw [NodeContext.metadata, NodeContext.metadata, h.labels, hnamespace]

end Agrees

/-- Two workloads of one name in whose metadata no drift is found have the same metadata. -/
theorem workloadMetadata_eq (h : ctx.Identified) (h' : ctx'.Identified)
    (hnamespace : ctx.namespaceName = ctx'.namespaceName) (hname : ctx.name = ctx'.name)
    (hdrift : Drift.metadata ctx.workloadMetadata ctx'.workloadMetadata = false) :
    ctx.Agrees ctx' ∧ ctx.workloadMetadata = ctx'.workloadMetadata := by
  have hagrees := agrees_of_labels h h' (Drift.labels_of_metadata hdrift)
  have htext : ctx.classification.text = ctx'.classification.text := by
    have hdesired : (ctx.workloadMetadata.annotations.getD ∅).get? Labels.classification =
        some ctx.classification.text := by simp [workloadMetadata, annotations]
    have hlive := Drift.annotations_of_metadata hdrift hdesired
    simpa [workloadMetadata, annotations, eq_comm] using hlive
  have hannotations : ctx.annotations = ctx'.annotations := by
    rw [annotations, annotations, h.annotations, h'.annotations, htext]
  refine ⟨hagrees, ?_⟩
  rw [workloadMetadata, workloadMetadata, hagrees.metadata hnamespace, hname, hannotations]

end NodeContext

/-- The contexts of a topology identify their nodes. -/
theorem Topology.identified_context (t : Topology) (c : Classifier) (namespaceName name : String)
    (definition : NodeDefinition) : (t.context c namespaceName name definition).Identified where
  topology := t.nodeConfig_label_topology name definition
  node := by
    have hnode : (t.context c namespaceName name definition).node.name = name :=
      t.nodeConfig_name name definition
    rw [hnode]
    simp [context, nodeConfig, NodeConfig.label_node_withIdentity, NodeConfig.ofImage]
  annotations := by
    simp only [context, nodeConfig, NodeConfig.withIdentity, NodeConfig.withOverride_annotations,
      NodeConfig.withPlugin_annotations, NodeConfig.withMode_annotations]
    rfl

end NetLab
