import NetLab.Cluster.Error
import NetLab.Text.Encoding

/-!
# What can go wrong in a pass

A `ResourceError` is about one object, or about the objects of one node.  It is recorded, and the
pass goes on.  A `PassError` ends the pass.
-/

namespace NetLab

open Cluster Kube

/-- A change that a pass makes. -/
inductive Action where
  | create
  | update
  | delete
deriving DecidableEq

def Action.name : Action → String
  | create => "create"
  | update => "update"
  | delete => "delete"

/-- A failure that does not end a pass. -/
inductive ResourceError where
  /-- The object has changed since the snapshot. -/
  | conflict (key : Key) (message : String)
  | api (key : Key) (action : Action) (source : ClusterError)
  /-- The name belongs to an object of another owner. -/
  | nameTaken (key : Key) (owner : Option String)
  | dependencyNotReady (key dependency : Key)
  | dependencyCycle (node : String)
  | unsupportedKind (node : String) (kind : Kind)
deriving DecidableEq

namespace ResourceError

def message : ResourceError → String
  | conflict key message =>
    key.text ++ ": update conflict, retrying on next pass: " ++ message
  | api key action source =>
    key.text ++ ": " ++ action.name ++ " failed: " ++ source.message
  | nameTaken key owner =>
    key.text ++ ": name is taken by an object outside this topology (owner "
      ++ Text.quote? owner ++ ")"
  | dependencyNotReady key dependency =>
    key.text ++ ": dependency " ++ dependency.text ++ " is not ready"
  | dependencyCycle node => "node " ++ node ++ ": resource dependencies form a cycle"
  | unsupportedKind node kind =>
    "node " ++ node ++ ": " ++ kind.name ++ " is not handled by this reconciler"

/-- The key of the object that the error is about. -/
def key? : ResourceError → Option Key
  | conflict key _ | api key _ _ | nameTaken key _ | dependencyNotReady key _ => some key
  | dependencyCycle _ | unsupportedKind _ _ => none

end ResourceError

/-- A failure that ends a pass. -/
inductive PassError where
  /-- The objects of a kind could not be listed. -/
  | list (kind : Kind) (source : ClusterError)
  | cancelled
deriving DecidableEq

def PassError.message : PassError → String
  | list kind source =>
    "failed to list existing " ++ kind.name ++ " resources: " ++ source.message
  | cancelled => "reconciliation cancelled"

end NetLab
