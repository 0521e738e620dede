import NetLab.Node.Config
import NetLab.Proofs.Topology.Records

/-!
# Topologies are read back

For each type of the written form, `WrittenIn` says which documents are a form of a value, in terms
of its fields (`NetLab.Proofs.Topology.Records`): what a field is called, what stands in it, and
what its default is.  What `toJson` writes is such a form, and `ofDocument?` reads the value back
from any of them, whatever else the document holds and whichever fields it leaves out that it may
(`Topology.read_back`).
-/

namespace NetLab

open Document

variable {δ : Type} [Document δ]

namespace ExecutionMode

/-- A word that names the mode. -/
def WrittenIn (mode : ExecutionMode) (d : δ) : Prop := word? d = some mode.name

theorem reads : Reads (@WrittenIn δ _) ofDocument? := by
  intro mode d h
  rw [ofDocument?, show word? d = some mode.name from h]
  cases mode <;> rfl

end ExecutionMode

namespace ResourceSpec

/-- A record of requests and limits. -/
def WrittenIn (spec : ResourceSpec) : δ → Prop :=
  IsRecord [
    .defaulted "requests" IsTexts spec.requests ∅, .defaulted "limits" IsTexts spec.limits ∅]

theorem writtenIn_toJson (spec : ResourceSpec) : spec.WrittenIn spec.toJson :=
  isRecord_ofMembers (by simp) <|
    .cons ⟨rfl, isTexts_ofStringMap _⟩ <| .cons ⟨rfl, isTexts_ofStringMap _⟩ .nil

theorem reads : Reads (@WrittenIn δ _) ofDocument? := by
  rintro spec d ⟨entries, hentries, hfields⟩
  simp only [List.forall_mem_cons] at hfields
  obtain ⟨hrequests, hlimits, -⟩ := hfields
  simp [ofDocument?, hentries, orDefault?_eq hrequests (Reads.texts _),
    orDefault?_eq hlimits (Reads.texts _)]

end ResourceSpec

namespace NodeDefinition

/-- A record of what the node is and has. -/
def WrittenIn (definition : NodeDefinition) : δ → Prop :=
  IsRecord [
    .defaulted "kind" IsText definition.kind "", .defaulted "image" IsText definition.image "",
    .defaulted "env" IsTexts definition.env ∅, .defaulted "labels" IsTexts definition.labels ∅,
    .optional "startup-config" IsText definition.startupConfig,
    .defaulted "files" IsTexts definition.files ∅]

theorem writtenIn_toJson (definition : NodeDefinition) : definition.WrittenIn definition.toJson :=
  isRecord_ofMembers (by simp) <|
    .cons ⟨rfl, isText_string _⟩ <| .cons ⟨rfl, isText_string _⟩ <|
    .cons ⟨rfl, isTexts_ofStringMap _⟩ <| .cons ⟨rfl, isTexts_ofStringMap _⟩ <|
    .cons ⟨rfl, isNullOr_text? _⟩ <| .cons ⟨rfl, isTexts_ofStringMap _⟩ .nil

theorem reads : Reads (@WrittenIn δ _) ofDocument? := by
  rintro definition d ⟨entries, hentries, hfields⟩
  simp only [List.forall_mem_cons] at hfields
  obtain ⟨hkind, himage, henv, hlabels, hstartup, hfiles, -⟩ := hfields
  simp [ofDocument?, hentries, orDefault?_eq hkind (Reads.text _),
    orDefault?_eq himage (Reads.text _), orDefault?_eq henv (Reads.texts _),
    orDefault?_eq hlabels (Reads.texts _), optional?_eq hstartup .text,
    orDefault?_eq hfiles (Reads.texts _)]

end NodeDefinition

namespace Link

/-- A record of the endpoints, which have to be there. -/
def WrittenIn (link : Link) : δ → Prop :=
  IsRecord [.required "endpoints" (IsList IsText) link.endpoints]

theorem writtenIn_toJson (link : Link) : link.WrittenIn link.toJson :=
  isRecord_ofMembers (by simp) <| .cons ⟨rfl, isList_array isText_string _⟩ .nil

theorem reads : Reads (@WrittenIn δ _) ofDocument? := by
  rintro link d ⟨entries, hentries, hfields⟩
  simp only [List.forall_mem_cons] at hfields
  obtain ⟨hendpoints, -⟩ := hfields
  simp [ofDocument?, hentries, field?_eq hendpoints (Reads.text.list _)]

end Link

namespace NodeOverride

/-- A record of the mode, the resources and further environment entries. -/
def WrittenIn (nodeOverride : NodeOverride) : δ → Prop :=
  IsRecord [
    .defaulted "executionMode" ExecutionMode.WrittenIn nodeOverride.executionMode .auto,
    .optional "resources" ResourceSpec.WrittenIn nodeOverride.resources,
    .defaulted "config" IsTexts nodeOverride.config ∅]

theorem writtenIn_toJson (nodeOverride : NodeOverride) :
    nodeOverride.WrittenIn nodeOverride.toJson :=
  isRecord_ofMembers (by simp) <|
    .cons ⟨rfl, rfl⟩ <|
    .cons ⟨rfl, isNullOr_getD ResourceSpec.writtenIn_toJson (fun _ => nofun) _⟩ <|
    .cons ⟨rfl, isTexts_ofStringMap _⟩ .nil

theorem reads : Reads (@WrittenIn δ _) ofDocument? := by
  rintro nodeOverride d ⟨entries, hentries, hfields⟩
  simp only [List.forall_mem_cons] at hfields
  obtain ⟨hmode, hresources, hconfig, -⟩ := hfields
  simp [ofDocument?, hentries, orDefault?_eq hmode (ExecutionMode.reads _),
    optional?_eq hresources ResourceSpec.reads,
    orDefault?_eq hconfig (Reads.texts _)]

end NodeOverride

namespace VmDefaults

/-- A record of the memory, the CPU and the keys. -/
def WrittenIn (defaults : VmDefaults) : δ → Prop :=
  IsRecord [
    .optional "memory" IsText defaults.memory, .optional "cpu" IsText defaults.cpu,
    .defaulted "sshAuthorizedKeys" (IsList IsText) defaults.sshAuthorizedKeys []]

theorem writtenIn_toJson (defaults : VmDefaults) : defaults.WrittenIn defaults.toJson :=
  isRecord_ofMembers (by simp) <|
    .cons ⟨rfl, isNullOr_text? _⟩ <| .cons ⟨rfl, isNullOr_text? _⟩ <|
    .cons ⟨rfl, isList_array isText_string _⟩ .nil

theorem reads : Reads (@WrittenIn δ _) ofDocument? := by
  rintro defaults d ⟨entries, hentries, hfields⟩
  simp only [List.forall_mem_cons] at hfields
  obtain ⟨hmemory, hcpu, hkeys, -⟩ := hfields
  simp [ofDocument?, hentries, optional?_eq hmemory .text,
    optional?_eq hcpu .text, orDefault?_eq hkeys (Reads.text.list _)]

end VmDefaults

namespace NativeExecution

/-- A record that may name the network plugin. -/
def IsNetworking (cni : Option String) : δ → Prop := IsRecord [.optional "cni" IsText cni]

/-- A record of the settings of all nodes, of single ones and of machines. -/
def WrittenIn (native : NativeExecution) : δ → Prop :=
  IsRecord [
    .defaulted "executionMode" ExecutionMode.WrittenIn native.executionMode .auto,
    .defaulted "networking" IsNetworking native.cni none,
    .optional "resources" ResourceSpec.WrittenIn native.resources,
    .defaulted "nodeOverrides" (IsMap NodeOverride.WrittenIn) native.nodeOverrides ∅,
    .defaulted "vmDefaults" VmDefaults.WrittenIn native.vmDefaults default]

theorem writtenIn_toJson (native : NativeExecution) : native.WrittenIn native.toJson :=
  isRecord_ofMembers (by simp) <|
    .cons ⟨rfl, rfl⟩ <|
    .cons ⟨rfl, isRecord_ofMembers (by simp) (.cons ⟨rfl, isNullOr_text? _⟩ .nil)⟩ <|
    .cons ⟨rfl, isNullOr_getD ResourceSpec.writtenIn_toJson (fun _ => nofun) _⟩ <|
    .cons ⟨rfl, isMap_ofMap NodeOverride.writtenIn_toJson _⟩ <|
    .cons ⟨rfl, VmDefaults.writtenIn_toJson _⟩ .nil

theorem reads_cni : Reads (@IsNetworking δ _) cniOfDocument? := by
  rintro cni d ⟨entries, hentries, hfields⟩
  simp only [List.forall_mem_cons] at hfields
  obtain ⟨hcni, -⟩ := hfields
  simp [cniOfDocument?, hentries, optional?_eq hcni .text]

theorem reads : Reads (@WrittenIn δ _) ofDocument? := by
  rintro native d ⟨entries, hentries, hfields⟩
  simp only [List.forall_mem_cons] at hfields
  obtain ⟨hmode, hnetworking, hresources, hoverrides, hmachines, -⟩ := hfields
  simp [ofDocument?, hentries, orDefault?_eq hmode (ExecutionMode.reads _),
    orDefault?_eq hnetworking (reads_cni _),
    optional?_eq hresources ResourceSpec.reads,
    orDefault?_eq hoverrides (NodeOverride.reads.map _),
    orDefault?_eq hmachines (VmDefaults.reads _)]

end NativeExecution

namespace Topology

/-- A record of the nodes, the links and how the nodes are run. -/
def IsSpec (t : Topology) : δ → Prop :=
  IsRecord [
    .defaulted "nodes" (IsMap NodeDefinition.WrittenIn) t.nodes ∅,
    .defaulted "links" (IsList Link.WrittenIn) t.links [],
    .defaulted "nativeExecution" NativeExecution.WrittenIn t.native default]

/-- A record of the name, which has to be there, and of all else, which may be missing if there is
nothing else. -/
def WrittenIn (t : Topology) : δ → Prop :=
  IsRecord [.required "name" IsText t.name, .defaulted "spec" IsSpec t (ofName t.name)]

theorem writtenIn_toJson (t : Topology) : t.WrittenIn t.toJson := by
  have hspec : t.IsSpec (Json.ofMembers [
      ("nodes", .ofMap t.nodes NodeDefinition.toJson),
      ("links", .array (t.links.map Link.toJson)),
      ("nativeExecution", t.native.toJson)]) :=
    isRecord_ofMembers (by simp) <|
      .cons ⟨rfl, isMap_ofMap NodeDefinition.writtenIn_toJson _⟩ <|
      .cons ⟨rfl, isList_array Link.writtenIn_toJson _⟩ <|
      .cons ⟨rfl, NativeExecution.writtenIn_toJson _⟩ .nil
  exact isRecord_ofMembers (by simp) <| .cons ⟨rfl, isText_string _⟩ <| .cons ⟨rfl, hspec⟩ .nil

theorem specOfDocument?_eq {t : Topology} (d : δ) (h : t.IsSpec d) :
    specOfDocument? t.name d = some t := by
  obtain ⟨entries, hentries, hfields⟩ := h
  simp only [List.forall_mem_cons] at hfields
  obtain ⟨hnodes, hlinks, hnative, -⟩ := hfields
  simp [specOfDocument?, hentries,
    orDefault?_eq hnodes (NodeDefinition.reads.map _),
    orDefault?_eq hlinks (Link.reads.list _),
    orDefault?_eq hnative (NativeExecution.reads _)]

theorem reads : Reads (@WrittenIn δ _) ofDocument? := by
  rintro t d ⟨entries, hentries, hfields⟩
  simp only [List.forall_mem_cons] at hfields
  obtain ⟨hname, hspec, -⟩ := hfields
  simp [ofDocument?, hentries, field?_eq hname (Reads.text _),
    orDefault?_eq hspec specOfDocument?_eq]

end Topology

namespace Endpoint

/-- A record of the node and the interface, which both have to be there. -/
def WrittenIn (endpoint : Endpoint) : δ → Prop :=
  IsRecord [
    .required "node" IsText endpoint.node, .required "interface" IsText endpoint.interface]

theorem writtenIn_toJson (endpoint : Endpoint) : endpoint.WrittenIn endpoint.toJson :=
  isRecord_ofMembers (by simp) <|
    .cons ⟨rfl, isText_string _⟩ <| .cons ⟨rfl, isText_string _⟩ .nil

theorem reads : Reads (@WrittenIn δ _) ofDocument? := by
  rintro endpoint d ⟨entries, hentries, hfields⟩
  simp only [List.forall_mem_cons] at hfields
  obtain ⟨hnode, hinterface, -⟩ := hfields
  simp [ofDocument?, hentries, field?_eq hnode (Reads.text _), field?_eq hinterface (Reads.text _)]

end Endpoint

namespace Interface

/-- A record of the name and the other end, which both have to be there. -/
def WrittenIn (interface : Interface) : δ → Prop :=
  IsRecord [
    .required "name" IsText interface.name, .required "peer" Endpoint.WrittenIn interface.peer]

theorem writtenIn_toJson (interface : Interface) : interface.WrittenIn interface.toJson :=
  isRecord_ofMembers (by simp) <|
    .cons ⟨rfl, isText_string _⟩ <| .cons ⟨rfl, Endpoint.writtenIn_toJson _⟩ .nil

theorem reads : Reads (@WrittenIn δ _) ofDocument? := by
  rintro interface d ⟨entries, hentries, hfields⟩
  simp only [List.forall_mem_cons] at hfields
  obtain ⟨hname, hpeer, -⟩ := hfields
  simp [ofDocument?, hentries, field?_eq hname (Reads.text _),
    field?_eq hpeer (Endpoint.reads _)]

end Interface

namespace NodeConfig

/-- A record of everything about one node; only what it is has to be there. -/
def WrittenIn (node : NodeConfig) : δ → Prop :=
  IsRecord [
    .required "name" IsText node.name, .required "image" IsText node.image,
    .required "kind" IsText node.kind, .defaulted "labels" IsTexts node.labels ∅,
    .defaulted "annotations" IsTexts node.annotations ∅,
    .defaulted "environment" IsTexts node.environment ∅,
    .defaulted "interfaces" (IsList Interface.WrittenIn) node.interfaces [],
    .optional "resources" ResourceSpec.WrittenIn node.resources,
    .optional "startup_config" IsText node.startupConfig,
    .defaulted "files" IsTexts node.files ∅]

theorem writtenIn_toJson (node : NodeConfig) : node.WrittenIn node.toJson :=
  isRecord_ofMembers (by simp) <|
    .cons ⟨rfl, isText_string _⟩ <| .cons ⟨rfl, isText_string _⟩ <|
    .cons ⟨rfl, isText_string _⟩ <| .cons ⟨rfl, isTexts_ofStringMap _⟩ <|
    .cons ⟨rfl, isTexts_ofStringMap _⟩ <| .cons ⟨rfl, isTexts_ofStringMap _⟩ <|
    .cons ⟨rfl, isList_array Interface.writtenIn_toJson _⟩ <|
    .cons ⟨rfl, isNullOr_getD ResourceSpec.writtenIn_toJson (fun _ => nofun) _⟩ <|
    .cons ⟨rfl, isNullOr_text? _⟩ <| .cons ⟨rfl, isTexts_ofStringMap _⟩ .nil

theorem reads : Reads (@WrittenIn δ _) ofDocument? := by
  rintro node d ⟨entries, hentries, hfields⟩
  simp only [List.forall_mem_cons] at hfields
  obtain ⟨hname, himage, hkind, hlabels, hannotations, henvironment, hinterfaces, hresources,
    hstartup, hfiles, -⟩ := hfields
  simp [ofDocument?, hentries, field?_eq hname (Reads.text _), field?_eq himage (Reads.text _),
    field?_eq hkind (Reads.text _), orDefault?_eq hlabels (Reads.texts _),
    orDefault?_eq hannotations (Reads.texts _), orDefault?_eq henvironment (Reads.texts _),
    orDefault?_eq hinterfaces (Interface.reads.list _),
    optional?_eq hresources ResourceSpec.reads,
    optional?_eq hstartup .text, orDefault?_eq hfiles (Reads.texts _)]

end NodeConfig

namespace Topology

/-- **What is written is read back**, whatever a topology, a node or a resource specification holds.
It is read back from every form of it as well: without fields that hold their default, with fields
that nobody knows, at every depth, and from documents of every kind. -/
theorem read_back :
    (∀ t : Topology, t.WrittenIn t.toJson ∧ Topology.ofDocument? t.toJson = some t) ∧
    (∀ node : NodeConfig, node.WrittenIn node.toJson ∧
      NodeConfig.ofDocument? node.toJson = some node) ∧
    (∀ spec : ResourceSpec, spec.WrittenIn spec.toJson ∧
      ResourceSpec.ofDocument? spec.toJson = some spec) ∧
    ∀ (δ : Type) [Document δ], Reads (@Topology.WrittenIn δ _) Topology.ofDocument? ∧
      Reads (@NodeConfig.WrittenIn δ _) NodeConfig.ofDocument? ∧
      Reads (@ResourceSpec.WrittenIn δ _) ResourceSpec.ofDocument? := by
  refine ⟨fun t => ⟨writtenIn_toJson t, reads t _ (writtenIn_toJson t)⟩, fun node => ?_,
    fun spec => ?_, fun δ _ => ⟨reads, NodeConfig.reads, ResourceSpec.reads⟩⟩
  · have hwritten := NodeConfig.writtenIn_toJson node
    exact ⟨hwritten, NodeConfig.reads node _ hwritten⟩
  · have hwritten := ResourceSpec.writtenIn_toJson spec
    exact ⟨hwritten, ResourceSpec.reads spec _ hwritten⟩

/-! A form with fields left out and fields added. -/

/-- A router, and machines with memory of their own. -/
def sparse : Topology :=
  { (Topology.ofName "lab" |>.withNode "r1" (.ofImage "router" "frr")) with
    native := { (default : NativeExecution) with
      vmDefaults := { (default : VmDefaults) with memory := some "2Gi" } } }

/-- Its node as somebody has written it. -/
def sparseNode : Json :=
  .ofMembers [("kind", .string "router"), ("image", .string "frr"), ("group", .nat 7)]

/-- Its settings as somebody has written them. -/
def sparseSettings : Json :=
  .ofMembers [
    ("networking", .ofMembers [("mtu", .nat 1500)]),
    ("vmDefaults", .ofMembers [
      ("memory", .string "2Gi"), ("cpu", .null), ("disk", .string "10Gi")])]

/-- The topology as somebody has written it. -/
def sparseDocument : Json :=
  .ofMembers [
    ("name", .string "lab"), ("note", .bool true),
    ("spec", .ofMembers [
      ("nodes", .ofMembers [("r1", sparseNode)]), ("nativeExecution", sparseSettings)])]

theorem sparse_writtenIn : sparse.WrittenIn sparseDocument := by
  -- From the innermost records outwards: a field is there once, or it holds its default.
  have hnode : (NodeDefinition.ofImage "router" "frr").WrittenIn sparseNode := by
    refine ⟨_, rfl, ?_⟩
    simp only [List.forall_mem_cons]
    exact ⟨.inl ⟨_, rfl, rfl⟩, .inl ⟨_, rfl, rfl⟩, .inr ⟨rfl, rfl⟩, .inr ⟨rfl, rfl⟩,
      .inr ⟨rfl, rfl⟩, .inr ⟨rfl, rfl⟩, nofun⟩
  have hmachines : sparse.native.vmDefaults.WrittenIn (sparseSettings.get "vmDefaults") := by
    refine ⟨_, rfl, ?_⟩
    simp only [List.forall_mem_cons]
    exact ⟨.inl ⟨_, rfl, rfl, rfl⟩, .inl ⟨_, rfl, rfl⟩, .inr ⟨rfl, rfl⟩, nofun⟩
  have hnetworking : NativeExecution.IsNetworking none (sparseSettings.get "networking") :=
    ⟨_, rfl, List.forall_mem_singleton.2 (.inr ⟨rfl, rfl⟩)⟩
  have hsettings : sparse.native.WrittenIn sparseSettings := by
    refine ⟨_, rfl, ?_⟩
    simp only [List.forall_mem_cons]
    exact ⟨.inr ⟨rfl, rfl⟩, .inl ⟨_, rfl, hnetworking⟩, .inr ⟨rfl, rfl⟩, .inr ⟨rfl, rfl⟩,
      .inl ⟨_, rfl, hmachines⟩, nofun⟩
  have hspec : sparse.IsSpec (sparseDocument.get "spec") := by
    refine ⟨_, rfl, ?_⟩
    simp only [List.forall_mem_cons]
    exact ⟨.inl ⟨_, rfl, _, rfl, .cons ⟨rfl, hnode⟩ .nil⟩, .inr ⟨rfl, rfl⟩,
      .inl ⟨_, rfl, hsettings⟩, nofun⟩
  refine ⟨_, rfl, ?_⟩
  simp only [List.forall_mem_cons]
  exact ⟨.inl ⟨_, rfl, rfl⟩, .inl ⟨_, rfl, hspec⟩, nofun⟩

theorem sparse_read_back :
    sparse.WrittenIn sparseDocument ∧ ofDocument? sparseDocument = some sparse :=
  ⟨sparse_writtenIn, (read_back.2.2.2 Json).1 _ _ sparse_writtenIn⟩

end Topology

end NetLab
