import NetLab.Controller.Pass
import NetLab.Json.MergePatch
import NetLab.Sandbox.Server

/-!
# Sessions

A session is a sandbox together with the topology and the classifier that an operator works with,
and a sequence of steps: passes of the operator, and what others do in between.
-/

namespace NetLab

open Cluster Kube

namespace Sandbox

/-- A step of a session. -/
inductive Step where
  /-- Renders the topology and runs the workload pass. -/
  | workloads (stopAfter : Option Nat)
  /-- Runs the workload pass with the given plans. -/
  | apply (plans : SortedMap String NodePlan) (stopAfter : Option Nat)
  | connectivity (stopAfter : Option Nat)
  | controller (generation : Option Int) (stopAfter : Option Nat)
  /-- Somebody writes an object. -/
  | seed (namespaceName : Option String) (object : Resource)
  /-- Somebody changes an object, without a new version. -/
  | patch (key : Key) (patch : Json)
  | remove (key : Key)
  | get (key : Key)
  /-- All objects. -/
  | keys
  | fault (fault : Fault)
  | clearFaults
  | topology (value : Json)
  | patchTopology (patch : Json)
  | force (node : String) (type : WorkloadType)
  | clear (node : String)
  /-- Adds the last report to the total. -/
  | merge (type : String) (generation : Option Int)

/-- What a step shows. -/
inductive StepResult where
  | pass (outcome : Except ControlError PassReport) (calls : List String)
  | controller (topology : String) (generation : Option Int)
      (outcome : Except ControlError TopologyReport) (calls : List String)
  | object (object : Option Resource)
  /-- The changed object, if it exists. -/
  | patched (object : Option Resource)
  | removed (existed : Bool)
  | keys (entries : List (Address × Resource))
  | merged (total : PassReport) (condition : Condition)
  | quiet

/-- Why a step cannot be taken. -/
inductive StepError where
  /-- The topology cannot be read. -/
  | topology
  /-- The object cannot be read after the change. -/
  | patch

/-- The state of a session. -/
structure Session where
  server : Sandbox
  namespaceName : String
  /-- The topology as it was given. -/
  topology : Json
  classifier : Classifier
  /-- The last report that has not been added to the total. -/
  pending : Option PassReport
  total : PassReport

namespace Session

/-- A session before its first step. -/
def start (server : Sandbox) (namespaceName : String) (topology : Json) (c : Classifier) :
    Session :=
  ⟨server, namespaceName, topology, c, none, .empty⟩

/-- The topology of a session. -/
def topology? (s : Session) : Except StepError Topology :=
  match Topology.ofDocument? s.topology with
  | some t => .ok t
  | none => .error .topology

/-- Runs a pass. -/
def runPass (s : Session) (stopAfter : Option Nat)
    (program : Program (Except PassError PassReport)) : StepResult × Session :=
  let (outcome, server) := s.server.run s.namespaceName stopAfter program
  let s := { s with server }
  match outcome with
  | none => (.pass (.error (.pass .cancelled)) server.log, s)
  | some (.error error) => (.pass (.error (.pass error)) server.log, s)
  | some (.ok report) => (.pass (.ok report) server.log, { s with pending := some report })

/-- Runs a controller pass. -/
def runController (s : Session) (t : Topology) (generation : Option Int) (stopAfter : Option Nat) :
    StepResult × Session :=
  let (outcome, server) := s.server.run s.namespaceName stopAfter
    (reconcileTopology t s.classifier s.namespaceName)
  (.controller t.name generation (controllerOutcome outcome) server.log, { s with server })

/-- The object of a key after a merge patch. -/
def patched (s : Session) (key : Key) (patch : Json) : Except StepError (StepResult × Session) :=
  match s.server.object? s.namespaceName key with
  | none => .ok (.patched none, s)
  | some object =>
    match Resource.ofJson? key.kind (object.toJson.mergePatch patch) with
    | none => .error .patch
    | some object =>
      let objects := s.server.objects.insert ⟨s.namespaceName, key⟩ object
      .ok (.patched (some object), { s with server := { s.server with objects } })

/-- Takes one step. -/
def step (s : Session) : Step → Except StepError (StepResult × Session)
  | .workloads stopAfter => do
    let t ← s.topology?
    match t.render s.classifier s.namespaceName with
    | .error error => return (.pass (.error (.render error)) [], s)
    | .ok rendered =>
      let plans := rendered.map fun _ node => node.plan
      return s.runPass stopAfter (reconcileWorkloads t.name s.namespaceName plans)
  | .apply plans stopAfter => do
    let t ← s.topology?
    return s.runPass stopAfter (reconcileWorkloads t.name s.namespaceName plans)
  | .connectivity stopAfter => do
    let t ← s.topology?
    return s.runPass stopAfter (reconcileConnectivity t s.namespaceName)
  | .controller generation stopAfter => do
    return s.runController (← s.topology?) generation stopAfter
  | .seed namespaceName object =>
    let (stored, server) := s.server.store (namespaceName.getD s.namespaceName) object
    .ok (.object (some stored), { s with server })
  | .patch key patch => s.patched key patch
  | .remove key =>
    let existed := (s.server.object? s.namespaceName key).isSome
    .ok (.removed existed, { s with server := s.server.remove s.namespaceName key })
  | .get key => .ok (.object (s.server.object? s.namespaceName key), s)
  | .keys => .ok (.keys s.server.objects.entries, s)
  | .fault fault =>
    .ok (.quiet, { s with server := { s.server with faults := s.server.faults ++ [fault] } })
  | .clearFaults => .ok (.quiet, { s with server := { s.server with faults := [] } })
  | .topology value => .ok (.quiet, { s with topology := value })
  | .patchTopology patch => .ok (.quiet, { s with topology := s.topology.mergePatch patch })
  | .force node type => .ok (.quiet, { s with classifier := s.classifier.force node type })
  | .clear node => .ok (.quiet, { s with classifier := s.classifier.clear node })
  | .merge type generation =>
    let total := match s.pending with
      | some report => s.total.merge report
      | none => s.total
    .ok (.merged total (total.condition type generation), { s with pending := none, total })

end Session

end Sandbox

end NetLab
