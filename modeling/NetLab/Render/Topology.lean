import NetLab.Node.Assembly
import NetLab.Render.Container
import NetLab.Render.Machine
import NetLab.Render.Plan

/-!
# Rendering topologies

`Topology.render` plans the objects of every node: the ConfigMap of its bundle if it has one, the
Deployment or VirtualMachine that runs it, which needs the ConfigMap, and the Service in front of
it, which needs the workload.  Objects are named after topology and node, so a topology in which
two nodes would have one name cannot be rendered at all.
-/

namespace NetLab

open Kube

/-- Why a topology cannot be rendered. -/
inductive RenderError where
  | nameCollision (name first second : String)
  | keyCollision (node : String) (collision : KeyCollision)
  /-- The manifest of the node's machine does not describe an object. -/
  | manifest (node : String)
deriving DecidableEq

namespace RenderError

def message : RenderError → String
  | nameCollision name first second =>
    "nodes " ++ first ++ " and " ++ second ++ " both map to resource name " ++ name
  | keyCollision node collision =>
    "node " ++ node ++ ": files " ++ collision.first ++ " and " ++ collision.second
      ++ " both map to config key " ++ collision.key
  | manifest node => "node " ++ node ++ ": failed to build manifest"

end RenderError

/-- A node as it was rendered. -/
structure RenderedNode where
  config : NodeConfig
  classification : Classification
  objects : List PlannedObject

namespace RenderedNode

/-- What should exist for the node. -/
def plan (rendered : RenderedNode) : NodePlan :=
  ⟨rendered.classification.workloadType, rendered.objects⟩

end RenderedNode

namespace NodeContext

/-- The object that runs the node, if it can be built. -/
def workload? (ctx : NodeContext) (defaults : VmDefaults) (bundle? : Option ConfigBundle) :
    Option Resource :=
  match ctx.classification.workloadType with
  | .container => some (ctx.deployment bundle?)
  | .vm => ctx.machine? defaults bundle?

/-- The objects of the node around the one that runs it, each after those it needs. -/
def objectsAround (ctx : NodeContext) (bundle? : Option ConfigBundle) (workload : Resource) :
    List PlannedObject :=
  let config? := bundle?.map fun bundle => configMap (ctx.metadata bundle.name) bundle
  (config?.map PlannedObject.free).toList ++
    [⟨workload, (config?.map Resource.key).toList⟩, ⟨ctx.service, [workload.key]⟩]

end NodeContext

namespace Topology

/-- The name of a node's workload and Service. -/
def workloadName (t : Topology) (node : String) : String := DnsLabel.ofParts [t.name, node]

/-- The name of a node's ConfigMap. -/
def bundleName (t : Topology) (node : String) : String :=
  DnsLabel.ofParts [t.name, node, "config"]

/-- Renders one node under the given name. -/
def renderNode (t : Topology) (c : Classifier) (namespaceName name : String) (node : NodeConfig) :
    Except RenderError RenderedNode :=
  let classification := c.classify node
  let ctx : NodeContext := ⟨t.name, namespaceName, node, name, classification⟩
  match ConfigBundle.ofNode node (t.bundleName node.name) with
  | .error collision => .error (.keyCollision node.name collision)
  | .ok bundle? =>
    match ctx.workload? t.native.vmDefaults bundle? with
    | none => .error (.manifest node.name)
    | some workload => .ok ⟨node, classification, ctx.objectsAround bundle? workload⟩

/-- Renders nodes in order; `taken` has the names of those before, with the nodes that have
them. -/
def renderNodes (t : Topology) (c : Classifier) (namespaceName : String) (taken : StringMap) :
    List (String × NodeDefinition) → Except RenderError (List (String × RenderedNode))
  | [] => .ok []
  | (node, definition) :: rest =>
    let name := t.workloadName node
    match taken.get? name with
    | some first => .error (.nameCollision name first node)
    | none => do
      let rendered ← t.renderNode c namespaceName name (t.nodeConfig node definition)
      let others ← t.renderNodes c namespaceName (taken.insert name node) rest
      return (node, rendered) :: others

/-- Renders the nodes of some definitions, in the order of names; the first fault stops it. -/
def renderDefinitions (t : Topology) (c : Classifier) (namespaceName : String)
    (definitions : SortedMap String NodeDefinition) :
    Except RenderError (SortedMap String RenderedNode) :=
  (t.renderNodes c namespaceName ∅ definitions.entries).map .ofList

/-- Renders every node of the topology. -/
def render (t : Topology) (c : Classifier) (namespaceName : String) :
    Except RenderError (SortedMap String RenderedNode) :=
  t.renderDefinitions c namespaceName t.nodes

end Topology

end NetLab
