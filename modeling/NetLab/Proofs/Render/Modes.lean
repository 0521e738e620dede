import NetLab.Proofs.Classify.Precedence
import NetLab.Proofs.Render.Layers

/-!
# What the label of the execution mode tells

A mode that is pinned, by the override of a node or by the topology, is written twice: as a label
and as an environment entry.  Only the entry counts when the node is classified
(`Classifier.classify_of_directive`).  The two can come apart, since other layers write one of them
alone: below the mode the definition of the node its own label, above it the override its own
entries.  `Topology.mode_label_agrees` says exactly when the label tells what runs.
-/

namespace NetLab

open Kube Text

/-! ## What runs -/

/-- **What the node is rendered as**: its only object that runs a node is of the kind for the
type. -/
def RenderedNode.RunsAs (rendered : RenderedNode) (type : WorkloadType) : Prop :=
  rendered.classification.workloadType = type ∧
    ∃ workload, (rendered.objects.map PlannedObject.object).filter Resource.runsNode = [workload] ∧
      workload.kind = type.kind

/-- A complete node runs as what it was classified. -/
theorem RenderedNode.IsComplete.runsAs {rendered : RenderedNode} {definition : NodeDefinition}
    (h : rendered.IsComplete definition) : rendered.RunsAs rendered.classification.workloadType := by
  obtain ⟨config?, workload, service, hobjects, -, hconfig, hworkload, hservice, -⟩ := h
  have hidle : config?.toList.filter Resource.runsNode = [] := by
    refine List.filter_eq_nil_iff.2 fun config hmem => ?_
    rw [Resource.runsNode, hconfig config (Option.mem_toList.1 hmem)]
    decide
  have hruns : workload.runsNode = true := by
    rw [Resource.runsNode, hworkload]
    cases rendered.classification.workloadType <;> rfl
  have hfront : service.runsNode = false := by
    rw [Resource.runsNode, hservice]
    rfl
  refine ⟨rfl, workload, ?_, hworkload⟩
  rw [hobjects, List.filter_append, hidle, List.nil_append, List.filter_cons_of_pos hruns,
    List.filter_singleton, hfront]
  rfl

/-- An entry that asks for a type is obeyed before anything else. -/
theorem Classifier.classify_of_directive (c : Classifier) {node : NodeConfig} {value : String}
    {type : WorkloadType} (hentry : node.environment.get? Labels.executionModeEntry = some value)
    (hasks : lower (trim value) ∈ type.directives) :
    c.classify node = ⟨type, .directive value⟩ :=
  Decides.classify_eq ⟨[], .directive, _, rfl, .directive hentry hasks, nofun⟩

/-- The name of a type asks for it. -/
theorem WorkloadType.name_mem_directives (type : WorkloadType) :
    lower (trim type.name) ∈ type.directives := by
  cases type <;> decide

/-! ## What is written -/

namespace Topology

/-- The entry for the mode that the override of a node writes among its own. -/
def ownEntry? (t : Topology) (node : String) : Option String :=
  (t.native.nodeOverrides.get? node).bind fun nodeOverride =>
    nodeOverride.config.get? Labels.executionModeEntry

/-- **What the label and the entry for the mode of a node tell.** -/
structure ModeLabelled (t : Topology) (name : String) (definition : NodeDefinition)
    (node : RenderedNode) : Prop where
  label : node.config.labels.get? Labels.executionMode =
    (t.pinnedMode? name).or (definition.labels.get? Labels.executionMode)
  entry : node.config.environment.get? Labels.executionModeEntry =
    (t.ownEntry? name).or
      ((t.pinnedMode? name).or (definition.env.get? Labels.executionModeEntry))
  runs : ∀ type : WorkloadType,
    node.config.environment.get? Labels.executionModeEntry = some type.name → node.RunsAs type
  /-- The label tells what runs if the override writes no other entry, and if the node's own
  environment has the entry where nothing else writes it. -/
  agrees_iff : ∀ type : WorkloadType,
    node.config.labels.get? Labels.executionMode = some type.name →
      (node.RunsAs type ∧
          node.config.environment.get? Labels.executionModeEntry = some type.name ↔
        (∀ value ∈ t.ownEntry? name, value = type.name) ∧
          (t.ownEntry? name = none → t.pinnedMode? name = none →
            definition.env.get? Labels.executionModeEntry = some type.name))

variable {t : Topology} {c : Classifier} {namespaceName name : String}
  {definition : NodeDefinition} {node : RenderedNode} {bundle? : Option ConfigBundle}

theorem label_mode_nodeConfig (t : Topology) (name : String) (definition : NodeDefinition) :
    (t.nodeConfig name definition).labels.get? Labels.executionMode =
      (t.pinnedMode? name).or (definition.labels.get? Labels.executionMode) := by
  rw [(t.nodeConfig_layered name definition).labels]
  simp (disch := decide) [Labels.identity?, single?_of_ne]

theorem entry_mode_nodeConfig (t : Topology) (name : String) (definition : NodeDefinition) :
    (t.nodeConfig name definition).environment.get? Labels.executionModeEntry =
      (t.ownEntry? name).or
        ((t.pinnedMode? name).or (definition.env.get? Labels.executionModeEntry)) := by
  rw [(t.nodeConfig_layered name definition).environment]
  simp (disch := decide) [single?_of_ne, ownEntry?]

/-- A node whose entry names a type runs as that type. -/
theorem runsAs_of_entry (h : t.IsRendered c namespaceName name definition bundle? node)
    {type : WorkloadType}
    (hentry : node.config.environment.get? Labels.executionModeEntry = some type.name) :
    node.RunsAs type := by
  have hruns := (isComplete_of_isRendered h).runsAs
  rwa [h.classification_eq, c.classify_of_directive hentry type.name_mem_directives] at hruns

theorem modeLabelled_of_isRendered
    (h : t.IsRendered c namespaceName name definition bundle? node) :
    t.ModeLabelled name definition node := by
  have hlabel := h.config_eq ▸ t.label_mode_nodeConfig name definition
  have hentry := h.config_eq ▸ t.entry_mode_nodeConfig name definition
  refine ⟨hlabel, hentry, fun type => runsAs_of_entry h, fun type htold => ?_⟩
  rw [and_iff_right_of_imp (runsAs_of_entry h), hentry]
  rw [hlabel] at htold
  cases hown : t.ownEntry? name with
  | some value => simp
  | none =>
    cases hpinned : t.pinnedMode? name with
    | none => simp
    | some mode => simpa [hpinned] using htold

variable {definitions : SortedMap String NodeDefinition} {rendered : SortedMap String RenderedNode}

/-- **When the label of the mode tells what runs**, and what runs when it does not. -/
theorem mode_label_agrees (h : t.renderDefinitions c namespaceName definitions = .ok rendered) :
    ∀ entry ∈ rendered.entries, ∃ definition, definitions.get? entry.1 = some definition ∧
      t.ModeLabelled entry.1 definition entry.2 := by
  intro entry hmem
  obtain ⟨definition, bundle?, hdefinition, hrendered⟩ :=
    isRendered_of_renderDefinitions h entry hmem
  exact ⟨definition, SortedMap.get?_eq_some_iff.2 hdefinition,
    modeLabelled_of_isRendered hrendered⟩

/-! Modes that are pinned, and a mode that a node only claims. -/

/-- What a node says of itself that would like to be a machine. -/
def claimant : NodeDefinition :=
  { NodeDefinition.ofImage "router" "frr" with
    labels := .ofList [(Labels.executionMode, "vm")] }

/-- The topology `lab` with this node alone. -/
def claiming : Topology := (Topology.ofName "lab").withNode "r1" claimant

theorem nodes_claiming : claiming.nodes.entries = [("r1", claimant)] := rfl

theorem claiming_renders : ∃ rendered, claiming.render .bare "sim" = .ok rendered ∧
    rendered.keys = ["r1"] :=
  exists_render_of_single nodes_claiming rfl

/-- All nodes are to run as containers, but the override of `fw` makes it a machine. -/
def pinnedModes : Topology :=
  { ((Topology.ofName "lab").withNode "fw" (.ofImage "router" "frr")).withNode "r1" claimant with
    native := { (default : NativeExecution) with
      executionMode := .container
      nodeOverrides := .ofList [("fw", { (default : NodeOverride) with executionMode := .vm })] } }

theorem pinnedModes_agree : ∃ rendered, pinnedModes.render .bare "sim" = .ok rendered ∧
    rendered.keys = ["fw", "r1"] ∧ ∀ entry ∈ rendered.entries,
      ∃ type, type = (if entry.1 = "fw" then WorkloadType.vm else .container) ∧
        entry.2.config.labels.get? Labels.executionMode = some type.name ∧ entry.2.RunsAs type ∧
        entry.2.config.environment.get? Labels.executionModeEntry = some type.name := by
  obtain ⟨rendered, hrender, hkeys⟩ := @exists_ok_of_any _ _ (pinnedModes.render .bare "sim")
    (fun rendered => decide (rendered.keys = ["fw", "r1"])) (by decide +kernel)
  refine ⟨rendered, hrender, of_decide_eq_true hkeys, fun entry hmem => ⟨_, rfl, ?_⟩⟩
  obtain ⟨definition, -, htold⟩ := mode_label_agrees hrender entry hmem
  have hname : entry.1 ∈ ["fw", "r1"] :=
    of_decide_eq_true hkeys ▸ List.mem_map_of_mem hmem
  have hpinned : ∀ name ∈ ["fw", "r1"], pinnedModes.ownEntry? name = none ∧
      pinnedModes.pinnedMode? name =
        some (if name = "fw" then WorkloadType.vm else .container).name := by
    decide
  obtain ⟨hown, hmode⟩ := hpinned entry.1 hname
  have hlabel := htold.label
  rw [hmode, Option.some_or] at hlabel
  refine ⟨hlabel, (htold.agrees_iff _ hlabel).2 ⟨?_, ?_⟩⟩
  · simp [hown]
  · simp [hmode]

/-- **A label of the node's own tells nothing.** -/
theorem not_every_mode_label_agrees : ¬ ∀ (t : Topology) (c : Classifier) (namespaceName : String)
    (definitions : SortedMap String NodeDefinition) (rendered : SortedMap String RenderedNode),
    t.renderDefinitions c namespaceName definitions = .ok rendered →
      ∀ entry ∈ rendered.entries, ∀ type : WorkloadType,
        entry.2.config.labels.get? Labels.executionMode = some type.name →
          entry.2.RunsAs type ∧
            entry.2.config.environment.get? Labels.executionModeEntry = some type.name := by
  intro hall
  obtain ⟨rendered, hrender, hkeys⟩ := claiming_renders
  have hmem : "r1" ∈ rendered.keys := hkeys ▸ List.mem_cons_self
  obtain ⟨⟨name, node⟩, hentry, rfl⟩ := List.mem_map.1 hmem
  obtain ⟨definition, bundle?, hdefinition, hrendered⟩ :=
    isRendered_of_renderDefinitions hrender _ hentry
  rw [nodes_claiming, List.mem_singleton] at hdefinition
  obtain rfl : definition = claimant := congrArg Prod.snd hdefinition
  have htold : claiming.ModeLabelled "r1" claimant node := modeLabelled_of_isRendered hrendered
  have hlabel : node.config.labels.get? Labels.executionMode = some WorkloadType.vm.name := by
    rw [htold.label]
    decide
  have hnone : node.config.environment.get? Labels.executionModeEntry = none := by
    rw [htold.entry]
    decide
  have hsome := (hall _ _ _ _ _ hrender _ hentry .vm hlabel).2
  rw [hnone] at hsome
  cases hsome

end Topology

end NetLab
