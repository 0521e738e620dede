import NetLab.Kube.Resource
import NetLab.Topology.Basic

/-!
# Plans

A plan says what should exist: objects, each with the keys of the objects that have to be there
before it is applied.  A `NodePlan` holds the objects of one node.
-/

namespace NetLab

open Kube

/-- An object that should exist, and what has to exist before it. -/
structure PlannedObject where
  object : Resource
  dependencies : List Key
deriving DecidableEq

namespace PlannedObject

def key (planned : PlannedObject) : Key := planned.object.key

/-- An object that depends on nothing. -/
def free (object : Resource) : PlannedObject := ⟨object, []⟩

end PlannedObject

/-- The kind of the object that runs a node of this type. -/
def WorkloadType.kind : WorkloadType → Kind
  | .container => .deployment
  | .vm => .virtualMachine

/-- The objects of one node, and what the node runs as. -/
structure NodePlan where
  workloadType : WorkloadType
  objects : List PlannedObject
deriving DecidableEq

namespace NodePlan

/-- The first object of a kind. -/
def object? (plan : NodePlan) (kind : Kind) : Option Resource :=
  (plan.objects.map PlannedObject.object).find? (·.kind = kind)

def keys (plan : NodePlan) : List Key := plan.objects.map PlannedObject.key

/-- The key of the object that runs the node. -/
def workloadKey? (plan : NodePlan) : Option Key :=
  (plan.object? plan.workloadType.kind).map Resource.key

/-- The kinds that occur in the plan, in the order of keys. -/
def kinds (plan : NodePlan) : List Kind := Kind.all.filter fun kind => (plan.object? kind).isSome

end NodePlan

end NetLab
