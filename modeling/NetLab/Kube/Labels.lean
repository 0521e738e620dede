import NetLab.SortedMap

/-!
# Labels

The label contract shared by every object of a topology.  The topology and node labels are what
services, network policies and the operator itself select on, so changing one orphans the objects
that exist.
-/

namespace NetLab.Kube.Labels

def managedBy : String := "app.kubernetes.io/managed-by"

/-- The value of the managed-by label. -/
def manager : String := "networksim"

/-- The owner label: the topology that an object belongs to. -/
def topology : String := "networksim.io/topology"

def node : String := "networksim.io/node"

def nodeKind : String := "networksim.io/node-kind"

def workloadType : String := "networksim.io/workload-type"

def executionMode : String := "networksim.io/execution-mode"

def networkingMode : String := "networksim.io/networking-mode"

def policyType : String := "networksim.io/policy-type"

/-- The label of a namespace that says what it is for. -/
def namespaceType : String := "networksim.io/type"

/-- The label that ties a machine's pod to it. -/
def virtualMachine : String := "kubevirt.io/vm"

/-- The annotation that records which rule chose a node's workload type. -/
def classification : String := "networksim.io/classification"

/-- The environment entry that asks for a workload type. -/
def executionModeEntry : String := "EXECUTION_MODE"

/-- The environment entry that names the network plugin. -/
def networkingModeEntry : String := "NETWORKING_MODE"

/-- The labels that identify a node's objects. -/
def identity (topologyName nodeName : String) : StringMap :=
  .ofList [(managedBy, manager), (topology, topologyName), (node, nodeName)]

/-- The labels that select the pods of one node. -/
def selector (topologyName nodeName : String) : StringMap :=
  .ofList [(topology, topologyName), (node, nodeName)]

/-- The selector text that lists what a topology owns. -/
def ownerSelector (topologyName : String) : String := topology ++ "=" ++ topologyName

end NetLab.Kube.Labels
