import NetLab.Proofs.Policy.Links
import NetLab.Proofs.Render.References
import NetLab.Proofs.Text.LegalLabels

/-!
# Names of objects

Whatever the topology and its nodes are called, every object that is planned for them has a DNS-1035
label for its name, and so has every pod for its host name: all of them are made by
`DnsLabel.ofParts`, and what that makes is a label (`Topology.names_legal`).
-/

namespace NetLab

open Kube

/-- **A legal name**, and for what runs a node a legal host name. -/
structure Kube.Resource.LegallyNamed (r : Resource) : Prop where
  name : DnsLabel.IsLabel r.name
  hostname : r.runsNode = true →
    ∃ hostname, r.pod.get "hostname" = .string hostname ∧ DnsLabel.IsLabel hostname

namespace NodeContext

variable (ctx : NodeContext) (defaults : VmDefaults) (bundle? : Option ConfigBundle)

/-- The pod of a workload has the host name of the node, whatever it runs as. -/
theorem hostname_workload :
    (ctx.workload defaults bundle?).pod.get "hostname" = .string ctx.hostname := by
  unfold workload
  split
  · simp [pod_deployment, podSpec, Json.get]
  · simp [pod_virtualMachine, machineSpec, Json.get]

end NodeContext

namespace Topology

variable {t : Topology} {c : Classifier} {namespaceName : String}

theorem legallyNamed_of_isRendered {name : String} {definition : NodeDefinition}
    {bundle? : Option ConfigBundle} {node : RenderedNode}
    (h : t.IsRendered c namespaceName name definition bundle? node) {planned : PlannedObject}
    (hmem : planned ∈ node.objects) : planned.object.LegallyNamed := by
  constructor
  · have hkey : planned.key ∈ node.plan.keys := List.mem_map_of_mem hmem
    change DnsLabel.IsLabel planned.key.name
    rcases name_of_mem_keys h hkey with ⟨-, -, hname⟩ | ⟨-, hname⟩ <;> rw [hname]
    · exact DnsLabel.isLabel_ofParts _
    · exact DnsLabel.isLabel_ofParts _
  · intro hruns
    obtain ⟨-, rfl⟩ := h
    rw [NodeContext.eq_workload_of_runsNode _ _ _ hmem hruns]
    exact ⟨_, NodeContext.hostname_workload _ _ _, DnsLabel.isLabel_ofParts _⟩

theorem legallyNamed_of_mem_policies {planned : PlannedObject}
    (hmem : planned ∈ t.policies namespaceName) : planned.object.LegallyNamed := by
  rcases mem_policies.1 (List.mem_map_of_mem hmem) with ⟨node, -, heq⟩ | heq <;> rw [heq]
  · exact ⟨DnsLabel.isLabel_ofParts _, nofun⟩
  · exact ⟨DnsLabel.isLabel_ofParts _, nofun⟩

/-- **All names are legal.**  Whatever parts a label is made of, the cut falls between two
characters, a DNS-1035 label comes out, and that is its own label.  So every object that is rendered
for a topology, and every policy of it, has a legal name. -/
theorem names_legal (t : Topology) (c : Classifier) (namespaceName : String) :
    (∀ parts, ∃ label, DnsLabel.cutAtByte? parts = some label ∧ DnsLabel.ofParts parts = label ∧
      DnsLabel.IsLabel label ∧ DnsLabel.ofParts [label] = label) ∧
    (∀ definitions rendered, t.renderDefinitions c namespaceName definitions = .ok rendered →
      ∀ entry ∈ rendered.entries, ∀ planned ∈ entry.2.objects, planned.object.LegallyNamed) ∧
    ∀ planned ∈ t.policies namespaceName, planned.object.LegallyNamed := by
  refine ⟨fun parts => ?_, fun definitions rendered h entry hentry planned hmem => ?_,
    fun planned hmem => legallyNamed_of_mem_policies hmem⟩
  · have hlabel := DnsLabel.isLabel_ofParts parts
    exact ⟨_, DnsLabel.cutAtByte?_eq parts, rfl, hlabel, DnsLabel.ofParts_of_isLabel hlabel⟩
  · obtain ⟨definition, bundle?, -, hrendered⟩ := isRendered_of_renderDefinitions h entry hentry
    exact legallyNamed_of_isRendered hrendered hmem

/-! Names that no label can hold as they are. -/

/-- The topology `1Läb` with the nodes `R_1` and `-ß-`. -/
def misnamed : Topology :=
  Topology.ofName "1Läb"
    |>.withNode "R_1" (.ofImage "router" "frr")
    |>.withNode "-ß-" (.ofImage "router" "frr")

theorem misnamed_legal : ∃ rendered,
    misnamed.renderDefinitions .bare "sim" misnamed.nodes = .ok rendered ∧
    (rendered.values.flatMap fun node => node.plan.keys.map Key.name) =
      ["ns-1l-b", "ns-1l-b", "ns-1l-b-r-1", "ns-1l-b-r-1"] ∧
    ∀ entry ∈ rendered.entries, ∀ planned ∈ entry.2.objects, planned.object.LegallyNamed := by
  obtain ⟨rendered, hrender, hnames⟩ := @exists_ok_of_any _ _
    (misnamed.renderDefinitions .bare "sim" misnamed.nodes)
    (fun rendered => decide ((rendered.values.flatMap fun node => node.plan.keys.map Key.name) =
      ["ns-1l-b", "ns-1l-b", "ns-1l-b-r-1", "ns-1l-b-r-1"])) (by decide +kernel)
  exact ⟨rendered, hrender, of_decide_eq_true hnames,
    (names_legal misnamed .bare "sim").2.1 _ _ hrender⟩

end Topology

end NetLab
