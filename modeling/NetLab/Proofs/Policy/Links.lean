import Mathlib.Data.List.Basic
import NetLab.Proofs.Drift.Policies
import NetLab.Proofs.Policy.Meaning

/-!
# Links are the permitted traffic

The policies of a topology let a pod of one node connect to a pod of another one exactly if a
well-formed link joins the nodes (`Topology.permitted_iff_linked`).  A pod carries the identity of
its node whatever labels the node has, so besides the policy for management only the policy of its
own node is about it.  Two rules are not about links: any pod may send to name servers, and any pod
may receive management traffic.  They never meet in one connection, as they have no port in common.
-/

namespace NetLab

open Kube

namespace Topology

variable {t : Topology}

/-! ## Links -/

/-- A well-formed link joins the nodes; which of them it names first does not matter. -/
def Linked (t : Topology) (a b : String) : Prop :=
  ∃ link ∈ t.links, ∃ x y, link.pair? = some (x, y) ∧
    ((x.node = a ∧ y.node = b) ∨ (x.node = b ∧ y.node = a))

theorem Linked.symm {a b : String} (h : t.Linked a b) : t.Linked b a := by
  obtain ⟨link, hlink, x, y, hpair, hjoins⟩ := h
  exact ⟨link, hlink, x, y, hpair, hjoins.symm⟩

theorem mem_linkedPeers {node peer : String} :
    peer ∈ t.linkedPeers node ↔
      (∃ pair ∈ t.endpointPairs, otherEnd? node pair = some peer) ∧ peer ≠ node ∧
        t.nodes.contains peer = true := by
  simp [linkedPeers, SortedMap.mem_keys_iff, SortedMap.contains_ofList_iff]

/-- The peers of a node are the other nodes that a link joins it with. -/
theorem mem_linkedPeers_iff_linked {a b : String} (hne : a ≠ b)
    (hdeclared : t.nodes.contains b = true) : b ∈ t.linkedPeers a ↔ t.Linked a b := by
  rw [mem_linkedPeers]
  constructor
  · rintro ⟨⟨⟨x, y⟩, hmem, hend⟩, -, -⟩
    obtain ⟨link, hlink, hpair⟩ := List.mem_filterMap.1 hmem
    refine ⟨link, hlink, x, y, hpair, ?_⟩
    simp only [otherEnd?] at hend
    split at hend
    · exact Or.inl ⟨‹_›, Option.some.inj hend⟩
    · split at hend
      · exact Or.inr ⟨Option.some.inj hend, ‹_›⟩
      · cases hend
  · rintro ⟨link, hlink, x, y, hpair, hjoins⟩
    refine ⟨⟨(x, y), List.mem_filterMap.2 ⟨link, hlink, hpair⟩, ?_⟩, hne.symm, hdeclared⟩
    rcases hjoins with ⟨rfl, rfl⟩ | ⟨rfl, rfl⟩
    · simp [otherEnd?]
    · simp [otherEnd?, hne.symm]

end Topology

/-! ## Pods -/

/-- The labels that a workload gives its pods. -/
def Kube.Resource.podLabels (r : Resource) : Json :=
  (r.get "spec").path ["template", "metadata", "labels"]

/-- A pod of a node, in whatever way the node is run: it is in the namespace, and has the labels
that the workload of the node gives its pods; those that the cluster adds have other names. -/
def Topology.IsPodOf (t : Topology) (c : Classifier) (namespaceName node : String) (pod : Pod) :
    Prop :=
  pod.namespaceName = namespaceName ∧
    ∃ definition bundle?, (node, definition) ∈ t.nodes.entries ∧ ∀ name value,
      ((t.context c namespaceName node definition).workload t.native.vmDefaults bundle?).podLabels.get?
        name = some (.string value) → pod.labels.get? name = some value

namespace NodeContext

/-- The labels of the node's pods. -/
def podLabels (ctx : NodeContext) : StringMap :=
  match ctx.classification.workloadType with
  | .container => ctx.labels
  | .vm => ctx.machineLabels

theorem podLabels_workload (ctx : NodeContext) (defaults : VmDefaults)
    (bundle? : Option ConfigBundle) :
    (ctx.workload defaults bundle?).podLabels = .ofStringMap ctx.podLabels := by
  unfold workload podLabels
  cases ctx.classification.workloadType with
  | container => simp [deployment, Resource.podLabels, podTemplate, Json.path, Json.get]
  | vm => simp [virtualMachine, machineTemplate, Resource.podLabels, Json.path, Json.get]

/-- The label that ties the pod of a machine to it is no label of the node. -/
theorem get?_podLabels (ctx : NodeContext) {name : String} (hname : name ≠ Labels.virtualMachine) :
    ctx.podLabels.get? name = ctx.labels.get? name := by
  unfold podLabels
  cases ctx.classification.workloadType with
  | container => rfl
  | vm => rw [machineLabels, SortedMap.get?_insert_of_ne hname]

end NodeContext

namespace Policy

theorem carries_selector {topology node : String} {labels : StringMap} :
    Carries labels (Labels.selector topology node) ↔
      labels.get? Labels.topology = some topology ∧ labels.get? Labels.node = some node := by
  have hselector (name : String) : (Labels.selector topology node).get? name =
      if name = Labels.node then some node
      else if name = Labels.topology then some topology else none := by
    simp [Labels.selector]
    split <;> simp
  have hne : Labels.topology ≠ Labels.node := by decide
  constructor
  · intro h
    exact ⟨h _ _ (by simp [hselector, hne]), h _ _ (by simp [hselector])⟩
  · rintro ⟨htopology, hnode⟩ name value hget
    rw [hselector] at hget
    split at hget
    · simp_all
    · split at hget
      · simp_all
      · cases hget

end Policy

namespace Topology.IsPodOf

variable {t : Topology} {c : Classifier} {namespaceName a b : String} {pod : Pod}

theorem label_topology (h : t.IsPodOf c namespaceName a pod) :
    pod.labels.get? Labels.topology = some t.name := by
  obtain ⟨-, definition, bundle?, -, hlabels⟩ := h
  refine hlabels _ _ ?_
  rw [NodeContext.podLabels_workload, Json.get?_ofStringMap,
    NodeContext.get?_podLabels _ (by decide), NodeContext.label?_topology,
    (t.identified_context c namespaceName a definition).topology]
  rfl

theorem label_node (h : t.IsPodOf c namespaceName a pod) :
    pod.labels.get? Labels.node = some a := by
  obtain ⟨-, definition, bundle?, -, hlabels⟩ := h
  refine hlabels _ _ ?_
  rw [NodeContext.podLabels_workload, Json.get?_ofStringMap,
    NodeContext.get?_podLabels _ (by decide), NodeContext.label?_node,
    (t.identified_context c namespaceName a definition).node]
  exact congrArg (fun name => some (Json.string name)) (t.nodeConfig_name a definition)

theorem declared (h : t.IsPodOf c namespaceName a pod) : t.nodes.contains a = true := by
  obtain ⟨-, definition, bundle?, hmem, -⟩ := h
  exact Option.isSome_iff_exists.2 ⟨definition, SortedMap.get?_eq_some_iff.2 hmem⟩

/-- A pod is selected as a pod of its node, and of no other. -/
theorem carries_iff (h : t.IsPodOf c namespaceName a pod) :
    Policy.Carries pod.labels (Labels.selector t.name b) ↔ b = a := by
  rw [Policy.carries_selector, h.label_topology, h.label_node]
  simp [eq_comm]

/-- Rules that name some nodes as peers mean a pod exactly if they name its node. -/
theorem exists_carries_iff (h : t.IsPodOf c namespaceName a pod) {peers : List String} :
    (∃ peer ∈ peers, some namespaceName = some pod.namespaceName ∧
      Policy.Carries pod.labels (Labels.selector t.name peer)) ↔ a ∈ peers := by
  simp [h.1, h.carries_iff]

/-- A pod with no other labels than those that the node's workload gives it. -/
theorem of_podLabels {definition : NodeDefinition} (hmem : (a, definition) ∈ t.nodes.entries)
    (hnamespace : pod.namespaceName = namespaceName)
    (hlabels : pod.labels = (t.context c namespaceName a definition).podLabels) :
    t.IsPodOf c namespaceName a pod := by
  refine ⟨hnamespace, definition, none, hmem, fun name value hget => ?_⟩
  simpa [NodeContext.podLabels_workload, hlabels] using hget

end Topology.IsPodOf

/-! ## Rules -/

namespace Policy

variable {direction : Direction} {connection : Connection} {pod : Pod}
variable {namespaceName topology node : String} {peers : List String}

/-- The rules for the peers of a node admit exactly their pods, whatever is sent. -/
theorem admits_peerRules {namespaceName : Option String} :
    (∃ rule ∈ PolicySpec.peerRules topology peers,
      admitsRule direction namespaceName connection (rule.toJson direction) = true) ↔
        ∃ peer ∈ peers, namespaceName = some (direction.peer connection).namespaceName ∧
          Carries (direction.peer connection).labels (Labels.selector topology peer) := by
  unfold PolicySpec.peerRules
  split
  · rename_i hempty
    simp [List.isEmpty_iff.1 hempty]
  · rename_i hpeers
    have hne : peers ≠ [] := by simpa using hpeers
    simp [admitsRule_toJson, hne]

theorem admits_nameService {namespaceName : Option String} :
    admitsRule direction namespaceName connection (PolicySpec.nameService.toJson direction) = true ↔
      (connection.protocol = "UDP" ∨ connection.protocol = "TCP") ∧ connection.port? = some 53 := by
  have hports : PolicySpec.nameService.ports = some [⟨53, "UDP"⟩, ⟨53, "TCP"⟩] := rfl
  have hpeers : PolicySpec.nameService.peers = none := rfl
  simp only [admitsRule_toJson, hpeers, hports, Option.getD_none, Option.getD_some, true_and,
    List.cons_ne_nil, false_or, List.exists_mem_cons_iff, List.not_mem_nil, false_and, exists_false,
    or_false, or_and_right]

theorem isolates_linkPolicy :
    isolates direction pod (linkPolicy topology node peers namespaceName) = true ↔
      namespaceName = pod.namespaceName ∧ Carries pod.labels (Labels.selector topology node) := by
  have hstated : direction ∈ (PolicySpec.links topology node peers).directions := by
    cases direction <;> simp [PolicySpec.links]
  have hselector : (PolicySpec.links topology node peers).podSelector =
      Labels.selector topology node := rfl
  simp [linkPolicy, isolates_toResource (List.ne_nil_of_mem hstated), policyMetadata, hstated,
    hselector]

/-- A node may send to its peers and to name servers. -/
theorem admits_egress_linkPolicy :
    admits .egress connection (linkPolicy topology node peers namespaceName) = true ↔
      ((connection.protocol = "UDP" ∨ connection.protocol = "TCP") ∧ connection.port? = some 53) ∨
        ∃ peer ∈ peers, some namespaceName = some connection.destination.namespaceName ∧
          Carries connection.destination.labels (Labels.selector topology peer) := by
  have hrules : rules (PolicySpec.links topology node peers) .egress =
      PolicySpec.nameService :: PolicySpec.peerRules topology peers := rfl
  rw [linkPolicy, admits_toResource, hrules, List.exists_mem_cons_iff, admits_nameService,
    admits_peerRules]
  rfl

/-- A node may receive from its peers. -/
theorem admits_ingress_linkPolicy :
    admits .ingress connection (linkPolicy topology node peers namespaceName) = true ↔
      ∃ peer ∈ peers, some namespaceName = some connection.source.namespaceName ∧
        Carries connection.source.labels (Labels.selector topology peer) := by
  rw [linkPolicy, admits_toResource]
  exact admits_peerRules

theorem isolates_managementPolicy :
    isolates direction pod (managementPolicy topology namespaceName) = true ↔
      namespaceName = pod.namespaceName ∧ pod.labels.get? Labels.topology = some topology ∧
        direction = .ingress := by
  have hstated : (PolicySpec.management topology).directions = [.ingress] := rfl
  have hselector : (PolicySpec.management topology).podSelector =
      .ofList [(Labels.topology, topology)] := rfl
  have hcarries : Carries pod.labels (.ofList [(Labels.topology, topology)]) ↔
      pod.labels.get? Labels.topology = some topology := by
    simp [Carries]
  rw [managementPolicy, isolates_toResource (by simp [hstated]), hstated, hselector, hcarries]
  simp [policyMetadata]

/-- Anyone may reach the management ports. -/
theorem admits_managementPolicy :
    admits .ingress connection (managementPolicy topology namespaceName) = true ↔
      ∃ port ∈ managementPorts,
        connection.protocol = "TCP" ∧ connection.port? = some port.number := by
  have hrules : rules (PolicySpec.management topology) .ingress =
      [⟨none, some (managementPorts.map fun port => ⟨port.number, "TCP"⟩)⟩] := rfl
  have hports : managementPorts ≠ [] := by simp [managementPorts]
  rw [managementPolicy, admits_toResource, hrules]
  simp [admitsRule_toJson, hports]

end Policy

/-! ## Connections between nodes -/

namespace Topology

variable {t : Topology} {c : Classifier} {namespaceName a b : String} {connection : Connection}

/-- The policies of a topology are those of its nodes and the one for management. -/
theorem mem_policies {policy : Resource} :
    policy ∈ (t.policies namespaceName).map PlannedObject.object ↔
      (∃ node, t.nodes.contains node = true ∧
        policy = linkPolicy t.name node (t.linkedPeers node) namespaceName) ∨
      policy = managementPolicy t.name namespaceName := by
  have hlist : policy ∈ (t.policies namespaceName).map PlannedObject.object ↔
      policy ∈ t.policyList namespaceName := by
    simp [policies, PlannedObject.free]
  rw [hlist]
  simp [policyList, SortedMap.mem_keys_iff, @eq_comm _ policy]

/-- At the end of a pod of a node, only the policy of the node counts, and for what the pod receives
the one for management. -/
theorem permits_iff_own (direction : Direction)
    (h : t.IsPodOf c namespaceName a (direction.subject connection)) :
    Policy.permits ((t.policies namespaceName).map PlannedObject.object) direction connection =
        true ↔
      Policy.admits direction connection
          (linkPolicy t.name a (t.linkedPeers a) namespaceName) = true ∨
        (direction = .ingress ∧ Policy.admits direction connection
          (managementPolicy t.name namespaceName) = true) := by
  have hmem : linkPolicy t.name a (t.linkedPeers a) namespaceName ∈
      (t.policies namespaceName).map PlannedObject.object :=
    mem_policies.2 (Or.inl ⟨a, h.declared, rfl⟩)
  have hown : Policy.isolates direction (direction.subject connection)
      (linkPolicy t.name a (t.linkedPeers a) namespaceName) = true :=
    Policy.isolates_linkPolicy.2 ⟨h.1.symm, h.carries_iff.2 rfl⟩
  rw [Policy.permits_iff]
  constructor
  · rintro (hopen | ⟨policy, hpolicy, hisolates, hadmits⟩)
    · cases hown.symm.trans (hopen _ hmem)
    · rcases mem_policies.1 hpolicy with ⟨node, -, rfl⟩ | rfl
      · rw [h.carries_iff.1 (Policy.isolates_linkPolicy.1 hisolates).2] at hadmits
        exact Or.inl hadmits
      · exact Or.inr ⟨(Policy.isolates_managementPolicy.1 hisolates).2.2, hadmits⟩
  · rintro (hadmits | ⟨rfl, hadmits⟩)
    · exact Or.inr ⟨_, hmem, hown, hadmits⟩
    · exact Or.inr ⟨_, mem_policies.2 (Or.inr rfl),
        Policy.isolates_managementPolicy.2 ⟨h.1.symm, h.label_topology, rfl⟩, hadmits⟩

section

variable (ha : t.IsPodOf c namespaceName a connection.source)
  (hb : t.IsPodOf c namespaceName b connection.destination)

include ha hb

/-- A pod sends to the peers of its node, and to name servers. -/
theorem permits_egress_iff :
    Policy.permits ((t.policies namespaceName).map PlannedObject.object) .egress connection = true ↔
      ((connection.protocol = "UDP" ∨ connection.protocol = "TCP") ∧ connection.port? = some 53) ∨
        b ∈ t.linkedPeers a := by
  rw [permits_iff_own .egress ha, Policy.admits_egress_linkPolicy,
    hb.exists_carries_iff]
  simp

/-- A pod receives from the peers of its node, and anything on the management ports. -/
theorem permits_ingress_iff :
    Policy.permits ((t.policies namespaceName).map PlannedObject.object) .ingress connection =
        true ↔
      a ∈ t.linkedPeers b ∨ ∃ port ∈ managementPorts,
        connection.protocol = "TCP" ∧ connection.port? = some port.number := by
  rw [permits_iff_own .ingress hb, Policy.admits_ingress_linkPolicy,
    Policy.admits_managementPolicy, ha.exists_carries_iff]
  simp

/-- **Links are exactly the permitted traffic**: between pods of different nodes a connection goes
through, on whatever protocol and port, exactly if a well-formed link joins the nodes. -/
theorem permitted_iff_linked (hne : a ≠ b) :
    Policy.permitted ((t.policies namespaceName).map PlannedObject.object) connection = true ↔
      t.Linked a b := by
  rw [Policy.permitted, Bool.and_eq_true, permits_egress_iff ha hb, permits_ingress_iff ha hb,
    mem_linkedPeers_iff_linked hne hb.declared, mem_linkedPeers_iff_linked hne.symm ha.declared]
  constructor
  · rintro ⟨⟨-, hname⟩ | hlinked, hingress⟩
    · rcases hingress with hlinked | ⟨port, hport, -, hnumber⟩
      · exact hlinked.symm
      · -- Name servers and management have no port in common.
        have hfree : ∀ port ∈ managementPorts, port.number ≠ 53 := by decide
        exact absurd (Option.some.inj (hnumber.symm.trans hname)) (hfree port hport)
    · exact hlinked
  · exact fun hlinked => ⟨Or.inr hlinked, Or.inl hlinked.symm⟩

end

/-! Three nodes, of which a link joins two. -/

def threeNodes : Topology :=
  ((oneNode.withNode "r2" (.ofImage "router" "frr")).withNode "r3"
    (.ofImage "router" "frr")).withLink "r1:eth1" "r2:eth1"

/-- A pod of a node that has no labels but those of its workload. -/
def threeNodesPod (node : String) : Pod where
  namespaceName := "sim"
  namespaceLabels := ∅
  labels := (threeNodes.context .bare "sim" node (.ofImage "router" "frr")).podLabels
  inBlock := fun _ => false
  portNamed? := fun _ _ => none

theorem isPodOf_threeNodesPod {node : String} (hmem : node ∈ ["r1", "r2", "r3"]) :
    threeNodes.IsPodOf .bare "sim" node (threeNodesPod node) := by
  have hentries : threeNodes.nodes.entries =
      ["r1", "r2", "r3"].map fun node => (node, .ofImage "router" "frr") := by decide
  refine .of_podLabels ?_ rfl rfl
  rw [hentries]
  exact List.mem_map_of_mem hmem

/-- Between linked nodes even a protocol without ports goes through, between others not even a
request to a name server. -/
theorem threeNodes_permits :
    Policy.permitted ((threeNodes.policies "sim").map PlannedObject.object)
        ⟨threeNodesPod "r1", threeNodesPod "r2", "ICMP", none⟩ = true ∧
      Policy.permitted ((threeNodes.policies "sim").map PlannedObject.object)
        ⟨threeNodesPod "r1", threeNodesPod "r3", "UDP", some 53⟩ = false := by
  have hpod (node : String) (hmem : node ∈ ["r1", "r2", "r3"]) := isPodOf_threeNodesPod hmem
  have hlinks : threeNodes.links = [⟨["r1:eth1", "r2:eth1"]⟩] := rfl
  have hpair : Link.pair? ⟨["r1:eth1", "r2:eth1"]⟩ = some (⟨"r1", "eth1"⟩, ⟨"r2", "eth1"⟩) := by
    decide
  constructor
  · rw [permitted_iff_linked (hpod "r1" (by decide)) (hpod "r2" (by decide)) (by decide)]
    exact ⟨_, hlinks ▸ List.mem_singleton.2 rfl, _, _, hpair, Or.inl ⟨rfl, rfl⟩⟩
  · rw [← Bool.not_eq_true,
      permitted_iff_linked (hpod "r1" (by decide)) (hpod "r3" (by decide)) (by decide)]
    rintro ⟨link, hmem, x, y, hlink, hjoins⟩
    rw [hlinks, List.mem_singleton] at hmem
    obtain ⟨rfl, rfl⟩ : Endpoint.mk "r1" "eth1" = x ∧ Endpoint.mk "r2" "eth1" = y := by
      simpa [hmem, hpair] using hlink
    simp at hjoins

end Topology

end NetLab
