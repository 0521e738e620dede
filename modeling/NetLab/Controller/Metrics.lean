import NetLab.Controller.Pass

/-!
# Metrics

What a controller pass adds to the counters and gauges of the operator, in order.  The duration of
the pass is measured outside, so its value is left open here.
-/

namespace NetLab

/-- What a metric does with its value. -/
inductive MetricKind where
  | counter
  | gauge
  | histogram
deriving DecidableEq

def MetricKind.name : MetricKind → String
  | counter => "counter"
  | gauge => "gauge"
  | histogram => "histogram"

/-- A recorded value. -/
structure Metric where
  kind : MetricKind
  name : String
  labels : List (String × String)
  value : Option Nat
deriving DecidableEq

namespace Metric

def counter (name : String) (labels : List (String × String)) (value : Nat) : Metric :=
  ⟨.counter, name, labels, some value⟩

def gauge (name : String) (labels : List (String × String)) (value : Nat) : Metric :=
  ⟨.gauge, name, labels, some value⟩

/-- The errors of a scope: of single objects, or of a whole pass. -/
def errors (scope : String) (count : Nat) : Metric :=
  counter "networksim_reconcile_errors_total" [("scope", scope)] count

/-- What the report of one pass adds: only counts that are not zero. -/
def ofPass (report : PassReport) : List Metric :=
  let changes := [(Action.create, report.created), (.update, report.updated),
    (.delete, report.deleted)]
  (changes.filter fun (_, changes) => !changes.isEmpty).map
    (fun (action, changes) =>
      counter "networksim_resources_changed_total" [("action", action.name)] changes.length) ++
    if report.errors.isEmpty then [] else [errors "resource" report.errors.length]

/-- The gauge for the nodes of a workload type. -/
def nodes (type : WorkloadType) (count : Nat) : Metric :=
  gauge "networksim_nodes" [("workload_type", type.name)] count

/-- What a successful controller pass adds. -/
def ofReport (report : TopologyReport) : List Metric :=
  let counts := report.nodeCounts
  ofPass report.workloads ++ ofPass report.connectivity ++
    [nodes .container counts.containers, nodes .vm counts.vms,
      gauge "networksim_nodes_ready" [] counts.ready]

/-- What a controller pass adds. -/
def ofOutcome (outcome : Except ControlError TopologyReport) : List Metric :=
  counter "networksim_reconcile_total" [] 1 ::
    ⟨.histogram, "networksim_reconcile_duration_seconds", [], none⟩ ::
    match outcome with
    | .ok report => ofReport report
    | .error _ => [errors "pass" 1]

end Metric

end NetLab
