import NetLab.Proofs.Render.Completeness

/-!
# The layers of a node's configuration

The environment and the labels of a node are written one layer over the other: what the node is
defined with, the settings of the topology, the override of the node, and for labels its identity.
Each layer is described by what it does to a lookup.  The execution mode is written twice, by the
topology and by the override, with the network plugin in between; as the plugin has a key of its own,
the two writes are one (`single?_twice`), and `Topology.nodeConfig_layered` has every key in order.
-/

namespace NetLab

open Kube

/-! ## Layers of one entry -/

/-- What a layer of one entry, or of none, has for a key. -/
def single? (name : String) (value? : Option String) (key : String) : Option String :=
  if key = name then value? else none

@[simp]
theorem single?_none (name key : String) : single? name none key = none := ite_self none

@[simp]
theorem single?_self (name : String) (value? : Option String) : single? name value? name = value? :=
  if_pos rfl

theorem single?_of_ne {name key : String} (h : key ≠ name) (value? : Option String) :
    single? name value? key = none :=
  if_neg h

theorem get?_insert_single? (m : StringMap) (name value key : String) :
    (m.insert name value).get? key = (single? name (some value) key).or (m.get? key) := by
  rw [SortedMap.get?_insert_ite, single?]
  split <;> rfl

/-- A value written twice, with another key written in between, is written once. -/
theorem single?_twice {name between : String} (h : name ≠ between)
    (upper? middle? lower? rest : Option String) (key : String) :
    (single? name upper? key).or
        ((single? between middle? key).or ((single? name lower? key).or rest)) =
      (single? between middle? key).or ((single? name (upper?.or lower?) key).or rest) := by
  unfold single?
  by_cases hname : key = name
  · have hbetween : key ≠ between := fun heq => h (hname.symm.trans heq)
    rw [if_pos hname, if_pos hname, if_pos hname, if_neg hbetween, Option.none_or, Option.none_or,
      Option.or_assoc]
  · rw [if_neg hname, if_neg hname, if_neg hname, Option.none_or, Option.none_or]

/-! ## What is written -/

/-- What a mode pins, unless it leaves the choice open. -/
def ExecutionMode.pinned? (mode : ExecutionMode) : Option String :=
  if mode = .auto then none else some mode.name

/-- The label of a node that identifies it by this key. -/
def Kube.Labels.identity? (topologyName nodeName kind key : String) : Option String :=
  (single? Labels.nodeKind (if kind = "" then none else some kind) key).or <|
    (single? Labels.node (some nodeName) key).or <|
      (single? Labels.topology (some topologyName) key).or <|
        single? Labels.managedBy (some Labels.manager) key

namespace NodeConfig

variable (node : NodeConfig) (mode : ExecutionMode) (cni : Option String)
  (nodeOverride? : Option NodeOverride) (key : String)

theorem environment_withMode : (node.withMode mode).environment.get? key =
    (single? Labels.executionModeEntry mode.pinned? key).or (node.environment.get? key) := by
  cases mode with
  | auto => rw [ExecutionMode.pinned?, if_pos rfl, single?_none, Option.none_or]; rfl
  | _ => exact get?_insert_single? _ _ _ _

theorem labels_withMode : (node.withMode mode).labels.get? key =
    (single? Labels.executionMode mode.pinned? key).or (node.labels.get? key) := by
  cases mode with
  | auto => rw [ExecutionMode.pinned?, if_pos rfl, single?_none, Option.none_or]; rfl
  | _ => exact get?_insert_single? _ _ _ _

theorem environment_withPlugin : (node.withPlugin cni).environment.get? key =
    (single? Labels.networkingModeEntry cni key).or (node.environment.get? key) := by
  cases cni with
  | none => rw [single?_none, Option.none_or]; rfl
  | some cni => exact get?_insert_single? _ _ _ _

theorem labels_withPlugin : (node.withPlugin cni).labels.get? key =
    (single? Labels.networkingMode cni key).or (node.labels.get? key) := by
  cases cni with
  | none => rw [single?_none, Option.none_or]; rfl
  | some cni => exact get?_insert_single? _ _ _ _

theorem environment_withOverride : (node.withOverride nodeOverride?).environment.get? key =
    (nodeOverride?.bind fun nodeOverride => nodeOverride.config.get? key).or
      ((single? Labels.executionModeEntry
          (nodeOverride?.bind fun nodeOverride => nodeOverride.executionMode.pinned?) key).or
        (node.environment.get? key)) := by
  cases nodeOverride? with
  | none => simp [withOverride]
  | some nodeOverride =>
    rw [Option.bind_some, Option.bind_some, ← environment_withMode]
    exact SortedMap.get?_extend _ _ _

theorem labels_withOverride : (node.withOverride nodeOverride?).labels.get? key =
    (single? Labels.executionMode
        (nodeOverride?.bind fun nodeOverride => nodeOverride.executionMode.pinned?) key).or
      (node.labels.get? key) := by
  cases nodeOverride? with
  | none => simp [withOverride]
  | some nodeOverride => exact labels_withMode _ _ _

theorem labels_withIdentity (topologyName : String) :
    (node.withIdentity topologyName).labels.get? key =
      (Labels.identity? topologyName node.name node.kind key).or (node.labels.get? key) := by
  have hidentity : (node.labels.extend (Labels.identity topologyName node.name)).get? key =
      (Labels.identity? topologyName node.name "" key).or (node.labels.get? key) := by
    rw [SortedMap.get?_extend]
    simp [Labels.identity, Labels.identity?, single?, Option.or_assoc]
  simp only [withIdentity]
  by_cases hkind : node.kind = ""
  · rw [if_pos hkind, hidentity, hkind]
  · rw [if_neg hkind, get?_insert_single?, hidentity]
    simp [Labels.identity?, hkind, Option.or_assoc]

/-! ### What is left alone -/

@[simp]
theorem kept_withMode : (node.withMode mode).image = node.image ∧
    (node.withMode mode).kind = node.kind ∧ (node.withMode mode).resources = node.resources := by
  cases mode <;> exact ⟨rfl, rfl, rfl⟩

@[simp]
theorem kept_withPlugin :
    (node.withPlugin cni).image = node.image ∧ (node.withPlugin cni).kind = node.kind := by
  cases cni <;> exact ⟨rfl, rfl⟩

@[simp]
theorem kept_withOverride : (node.withOverride nodeOverride?).image = node.image ∧
    (node.withOverride nodeOverride?).kind = node.kind := by
  cases nodeOverride? with
  | none => exact ⟨rfl, rfl⟩
  | some nodeOverride => simp [withOverride]

theorem resources_withOverride : (node.withOverride nodeOverride?).resources =
    (nodeOverride?.bind NodeOverride.resources).or node.resources := by
  cases nodeOverride? with
  | none => rfl
  | some nodeOverride => simp [withOverride]

end NodeConfig

/-! ## All layers -/

namespace Topology

/-- The mode that a node is pinned to: by its override, unless that leaves the choice open; then by
the topology. -/
def pinnedMode? (t : Topology) (node : String) : Option String :=
  ((t.native.nodeOverrides.get? node).bind fun nodeOverride =>
    nodeOverride.executionMode.pinned?).or t.native.executionMode.pinned?

/-- **A configuration in its layers.**  Where a higher layer has nothing for a key, the next one
counts. -/
structure Layered (t : Topology) (name : String) (definition : NodeDefinition) (node : NodeConfig) :
    Prop where
  environment : ∀ key, node.environment.get? key =
    ((t.native.nodeOverrides.get? name).bind fun nodeOverride => nodeOverride.config.get? key).or
      ((single? Labels.networkingModeEntry t.native.cni key).or
        ((single? Labels.executionModeEntry (t.pinnedMode? name) key).or (definition.env.get? key)))
  labels : ∀ key, node.labels.get? key =
    (Labels.identity? t.name name definition.kind key).or
      ((single? Labels.networkingMode t.native.cni key).or
        ((single? Labels.executionMode (t.pinnedMode? name) key).or (definition.labels.get? key)))
  resources : node.resources =
    ((t.native.nodeOverrides.get? name).bind NodeOverride.resources).or t.native.resources
  startupConfig : node.startupConfig = definition.startupConfig
  files : node.files = definition.files
  image : node.image = definition.image
  kind : node.kind = definition.kind
  name : node.name = name

/-- **Every key has the value of its highest layer.** -/
theorem nodeConfig_layered (t : Topology) (name : String) (definition : NodeDefinition) :
    t.Layered name definition (t.nodeConfig name definition) where
  environment key := by
    have hkeys : Labels.executionModeEntry ≠ Labels.networkingModeEntry := by decide
    simp only [nodeConfig, NodeConfig.withIdentity, NodeConfig.environment_withOverride,
      NodeConfig.environment_withPlugin, NodeConfig.environment_withMode]
    rw [single?_twice hkeys, pinnedMode?]
  labels key := by
    have hkeys : Labels.executionMode ≠ Labels.networkingMode := by decide
    simp only [nodeConfig, NodeConfig.labels_withIdentity, NodeConfig.labels_withOverride,
      NodeConfig.labels_withPlugin, NodeConfig.labels_withMode]
    rw [single?_twice hkeys, pinnedMode?]
    simp [NodeConfig.ofImage]
  resources := by
    simp only [nodeConfig, NodeConfig.withIdentity, NodeConfig.resources_withOverride]
  startupConfig := (t.contents_nodeConfig name definition).1
  files := (t.contents_nodeConfig name definition).2
  image := by simp [nodeConfig, NodeConfig.withIdentity, NodeConfig.ofImage]
  kind := by simp [nodeConfig, NodeConfig.withIdentity, NodeConfig.ofImage]
  name := t.nodeConfig_name name definition

end Topology

end NetLab
