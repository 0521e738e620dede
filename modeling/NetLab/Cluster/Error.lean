import NetLab.Kube.Kind

/-!
# Failures of cluster calls

What a call to the API server can fail with.  A status of 404 means that the object is not there;
409 means that it is there already, or that it has changed since it was read.
-/

namespace NetLab.Cluster

/-- A failure that the API server reports. -/
structure Failure where
  code : Nat
  reason : String
  message : String
deriving DecidableEq

/-- Why a cluster call failed. -/
inductive ClusterError where
  | notFound (message : String)
  | alreadyExists (message : String)
  /-- The object has changed since it was read. -/
  | conflict (message : String)
  | api (failure : Failure)
  /-- There was no usable answer. -/
  | client
deriving DecidableEq

namespace ClusterError

/-- The failure that a code and a reason stand for. -/
def ofFailure (failure : Failure) : ClusterError :=
  if failure.code = 404 then .notFound failure.message
  else if failure.code = 409 then
    if failure.reason = "AlreadyExists" then .alreadyExists failure.message
    else .conflict failure.message
  else .api failure

def message : ClusterError → String
  | notFound message => "not found: " ++ message
  | alreadyExists message => "already exists: " ++ message
  | conflict message => "conflict: " ++ message
  | api failure =>
    "API error " ++ toString failure.code ++ " (" ++ failure.reason ++ "): " ++ failure.message
  | client => "Kubernetes client error"

def isNotFound : ClusterError → Bool
  | notFound _ => true
  | _ => false

end ClusterError

end NetLab.Cluster
