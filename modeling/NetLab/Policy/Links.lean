import NetLab.Policy.Spec
import NetLab.Render.Context
import NetLab.Render.Plan
import NetLab.Topology.Endpoint

/-!
# Policies for links

Links are enforced as policies: a node may talk to the nodes it is linked to, and to name servers.
A node without links may talk to name servers only.  One more policy for the whole topology admits
management traffic to every node.
-/

namespace NetLab

open Kube

namespace Topology

/-- The node at the other end, if the link has an end at this node; a link from a node to itself
leads to that node. -/
def otherEnd? (node : String) (pair : Endpoint × Endpoint) : Option String :=
  if pair.1.node = node then some pair.2.node
  else if pair.2.node = node then some pair.1.node
  else none

/-- The other nodes of the topology that a node is linked to. -/
def linkedPeers (t : Topology) (node : String) : List String :=
  let ends := (t.endpointPairs.filterMap (otherEnd? node)).filter fun peer =>
    peer ≠ node && t.nodes.contains peer
  (SortedMap.ofList (ends.map fun peer => (peer, ()))).keys

end Topology

namespace PolicySpec

/-- Name servers, at any peer. -/
def nameService : PolicyRule := ⟨none, some [⟨53, "UDP"⟩, ⟨53, "TCP"⟩]⟩

/-- The given nodes of a topology, on every protocol and port; no rule at all if there are none. -/
def peerRules (topology : String) (peers : List String) : List PolicyRule :=
  if peers.isEmpty then [] else [⟨some (peers.map (Labels.selector topology)), none⟩]

/-- A node may talk to the given nodes and to name servers. -/
def links (topology node : String) (peers : List String) : PolicySpec where
  podSelector := Labels.selector topology node
  ingress := some (peerRules topology peers)
  egress := some (nameService :: peerRules topology peers)
  directions := [.ingress, .egress]

/-- Anyone may reach the management ports of every node. -/
def management (topology : String) : PolicySpec where
  podSelector := .ofList [(Labels.topology, topology)]
  ingress := some [⟨none, some (managementPorts.map fun port => ⟨port.number, "TCP"⟩)⟩]
  egress := none
  directions := [.ingress]

end PolicySpec

/-- The metadata of a policy. -/
def policyMetadata (name namespaceName : String) (labels : StringMap) : Meta :=
  { Meta.empty with name := some name, namespaceName := some namespaceName, labels := some labels }

/-- The policy that restricts a node to the given nodes. -/
def linkPolicy (topology node : String) (peers : List String) (namespaceName : String) :
    Resource :=
  (PolicySpec.links topology node peers).toResource
    (policyMetadata (DnsLabel.ofParts [topology, node, "links"]) namespaceName
      ((Labels.identity topology node).insert Labels.policyType "links"))

/-- The policy that admits management traffic. -/
def managementPolicy (topology namespaceName : String) : Resource :=
  (PolicySpec.management topology).toResource
    (policyMetadata (DnsLabel.ofParts [topology, "management"]) namespaceName
      (.ofList [
        (Labels.managedBy, Labels.manager), (Labels.topology, topology),
        (Labels.policyType, "management")]))

namespace Topology

/-- The policies in the order of declaration: one for each node, then the one for management. -/
def policyList (t : Topology) (namespaceName : String) : List Resource :=
  (t.nodes.keys.map fun node => linkPolicy t.name node (t.linkedPeers node) namespaceName) ++
    [managementPolicy t.name namespaceName]

/-- The policies of a topology, in the order of their keys. -/
def policies (t : Topology) (namespaceName : String) : List PlannedObject :=
  ((t.policyList namespaceName).map PlannedObject.free).mergeSort fun a b =>
    (compare a.key b.key).isLE

end Topology

end NetLab
