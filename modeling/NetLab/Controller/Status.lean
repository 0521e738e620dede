import NetLab.Controller.Pass

/-!
# The status page

What the operator tells about its last controller pass.  After a failed pass it tells the failure
and nothing about nodes.
-/

namespace NetLab

namespace Condition

def toJson (condition : Condition) : Json :=
  .ofOptional [
    ("type", some (.string condition.type)),
    ("status", some (.string condition.status)),
    ("reason", some (.string condition.reason)),
    ("message", some (.string condition.message)),
    ("observedGeneration", condition.observedGeneration.map .int)]

end Condition

namespace NodeCounts

def toJson (counts : NodeCounts) : Json :=
  .ofMembers [
    ("containers", .nat counts.containers),
    ("vms", .nat counts.vms),
    ("ready", .nat counts.ready)]

end NodeCounts

namespace PassReport

/-- A report in short: counts of changes, and the texts of errors. -/
def brief (report : PassReport) : Json :=
  .ofMembers [
    ("created", .nat report.created.length),
    ("updated", .nat report.updated.length),
    ("deleted", .nat report.deleted.length),
    ("errors", .ofStrings (report.errors.map ResourceError.message))]

end PassReport

namespace TopologyReport

/-- The page after a successful pass. -/
def page (report : TopologyReport) : Json :=
  let status := report.workloads.nodes
  .ofOptional [
    ("topology", some (.string report.topology)),
    ("nodes", some (.ofMap report.nodes fun type => .string type.name)),
    ("node_status", if status.isEmpty then none else some (.ofMap status NodeStatus.toJson)),
    ("node_counts", some report.nodeCounts.toJson),
    ("workloads", some report.workloads.brief),
    ("connectivity", some report.connectivity.brief),
    ("conditions", some (.array ((report.conditions none).map Condition.toJson)))]

end TopologyReport

/-- The page after a failed pass over a topology. -/
def ControlError.page (error : ControlError) (topology : String) : Json :=
  .ofMembers [
    ("topology", .string topology),
    ("error", .string error.message),
    ("nodes", .object []),
    ("conditions", .array [])]

/-- The page after a pass over a topology. -/
def statusPage (topology : String) : Except ControlError TopologyReport → Json
  | .ok report => report.page
  | .error error => error.page topology

end NetLab
