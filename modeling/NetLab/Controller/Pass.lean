import NetLab.Reconcile.Workloads
import NetLab.Render.Topology

/-!
# Controller passes

One controller pass checks a topology, renders it, and runs the workload pass and then the
connectivity pass.  A fault of the topology or of its rendering ends it before the first call.
-/

namespace NetLab

open Cluster

/-- Why a controller pass came to nothing. -/
inductive ControlError where
  | links (error : LinkError)
  | render (error : RenderError)
  | pass (error : PassError)

def ControlError.message : ControlError → String
  | links error => error.message
  | render error => error.message
  | pass error => error.message

/-- The outcome of a controller pass. -/
structure TopologyReport where
  topology : String
  /-- What each node runs as. -/
  nodes : SortedMap String WorkloadType
  workloads : PassReport
  connectivity : PassReport

/-- How many nodes run as what, and how many are ready. -/
structure NodeCounts where
  containers : Nat
  vms : Nat
  ready : Nat
deriving DecidableEq

namespace TopologyReport

def isClean (report : TopologyReport) : Bool :=
  report.workloads.isClean && report.connectivity.isClean

def nodeCounts (report : TopologyReport) : NodeCounts where
  containers := report.nodes.values.countP (· = .container)
  vms := report.nodes.values.countP (· = .vm)
  ready := report.workloads.nodes.values.countP NodeStatus.ready

/-- The conditions of the topology after the pass. -/
def conditions (report : TopologyReport) (generation : Option Int) : List Condition := [
  report.workloads.condition "WorkloadsReady" generation,
  report.connectivity.condition "ConnectivityReady" generation]

end TopologyReport

/-- One controller pass over a topology. -/
def reconcileTopology (t : Topology) (c : Classifier) (namespaceName : String) :
    Program (Except ControlError TopologyReport) :=
  match t.check with
  | .error error => .done (.error (.links error))
  | .ok () =>
    match t.render c namespaceName with
    | .error error => .done (.error (.render error))
    | .ok rendered => do
      match ← reconcileWorkloads t.name namespaceName
        (rendered.map fun _ node => node.plan) with
      | .error error => return .error (.pass error)
      | .ok workloads =>
        match ← reconcileConnectivity t namespaceName with
        | .error error => return .error (.pass error)
        | .ok connectivity =>
          let nodes := rendered.map fun _ node => node.classification.workloadType
          return .ok ⟨t.name, nodes, workloads, connectivity⟩

/-- What a controller pass reports: one that was interrupted reports that it was cancelled. -/
def controllerOutcome (result : Option (Except ControlError TopologyReport)) :
    Except ControlError TopologyReport :=
  result.getD (.error (.pass .cancelled))

end NetLab
