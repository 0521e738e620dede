import NetLab.Kube.Resource
import NetLab.Topology.Basic

/-!
# The status of nodes

How a node is doing is read from the live object that runs it.  A Deployment is running once it has
a ready replica; a machine reports readiness, and its phase, itself.
-/

namespace NetLab

open Kube

/-- How a node is doing. -/
structure NodeStatus where
  workloadType : WorkloadType
  phase : String
  ready : Bool
  message : String
deriving DecidableEq

namespace NodeStatus

/-- The count at a field of a status; a missing one is zero. -/
def count (status : Json) (field : String) : Int := (status.get field).asInt?.getD 0

/-- The status of a node that runs as a container. -/
def ofDeployment (live : Resource) : NodeStatus :=
  let status := live.get "status"
  if count status "readyReplicas" > 0 then
    ⟨.container, "Running", true, "Deployment is running"⟩
  else if count status "replicas" > 0 then
    ⟨.container, "Pending", false, "Deployment is pending"⟩
  else ⟨.container, "Creating", false, "Deployment is starting"⟩

/-- The status of a node that runs as a machine. -/
def ofVirtualMachine (live : Resource) : NodeStatus :=
  let status := live.get "status"
  if status.get "ready" = .bool true then
    ⟨.vm, "Running", true, "Virtual machine is running"⟩
  else
    match status.get "printableStatus" with
    | .string phase => ⟨.vm, phase, false, "Virtual machine status: " ++ phase⟩
    | _ => ⟨.vm, "Creating", false, "Virtual machine is starting"⟩

/-- The status of a node whose workload does not exist. -/
def missing (type : WorkloadType) : NodeStatus :=
  ⟨type, "Missing", false, type.name ++ " workload does not exist"⟩

/-- The status of a node of that type with the given live object, if there is one. -/
def observe (type : WorkloadType) (live? : Option Resource) : NodeStatus :=
  match live? with
  | some live =>
    match live.kind with
    | .deployment => ofDeployment live
    | .virtualMachine => ofVirtualMachine live
    | _ => missing type
  | none => missing type

def toJson (status : NodeStatus) : Json :=
  .ofMembers [
    ("workload_type", .string status.workloadType.name),
    ("phase", .string status.phase),
    ("ready", .bool status.ready),
    ("message", .string status.message)]

end NodeStatus

end NetLab
