import NetLab.Classify.Classifier
import NetLab.Kube.Resource
import NetLab.Text.DnsLabel

/-!
# What the objects of a node share

All objects of a node carry the labels of the node and its workload type.  The workload type is
written last, so no label of the node can stand for it.
-/

namespace NetLab

open Kube

/-- What the objects of one node have in common. -/
structure NodeContext where
  topology : String
  namespaceName : String
  node : NodeConfig
  /-- The name of the workload and of the Service in front of it. -/
  name : String
  classification : Classification

namespace NodeContext

/-- The labels of the node's objects. -/
def labels (ctx : NodeContext) : StringMap :=
  ctx.node.labels.insert Labels.workloadType ctx.classification.workloadType.name

/-- The metadata of an object of the node. -/
def metadata (ctx : NodeContext) (name : String) : Meta :=
  { Meta.empty with
    name := some name
    namespaceName := some ctx.namespaceName
    labels := some ctx.labels }

/-- The annotations of the workload: those of the node and the reason for its type. -/
def annotations (ctx : NodeContext) : StringMap :=
  ctx.node.annotations.insert Labels.classification ctx.classification.text

/-- The metadata of the workload itself. -/
def workloadMetadata (ctx : NodeContext) : Meta :=
  { ctx.metadata ctx.name with annotations := some ctx.annotations }

/-- The labels that select the pods of the node. -/
def selector (ctx : NodeContext) : StringMap := Labels.selector ctx.topology ctx.node.name

def hostname (ctx : NodeContext) : String := DnsLabel.ofParts [ctx.node.name]

end NodeContext

/-- A port that every node offers for its management. -/
structure ManagementPort where
  name : String
  number : Nat

/-- The management ports. -/
def managementPorts : List ManagementPort := [⟨"ssh", 22⟩, ⟨"netconf", 830⟩, ⟨"gnmi", 57400⟩]

end NetLab
