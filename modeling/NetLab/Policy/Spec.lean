import NetLab.Kube.Resource

/-!
# Network policies

The part of network policies that the operator writes: which pods a policy is about, and the rules
for traffic into and out of them.  A rule without peers is about any peer, a rule without ports
about any protocol and port.
-/

namespace NetLab

open Kube

/-- A port of a rule. -/
structure PolicyPort where
  port : Nat
  protocol : String
deriving DecidableEq

/-- A rule: the peers and ports that it admits. -/
structure PolicyRule where
  /-- The labels that select the pods of each peer. -/
  peers : Option (List StringMap)
  ports : Option (List PolicyPort)
deriving DecidableEq

/-- The directions of traffic. -/
inductive Direction where
  | ingress
  | egress
deriving DecidableEq

/-- A policy: the pods it is about, its rules, and the directions that it restricts. -/
structure PolicySpec where
  podSelector : StringMap
  ingress : Option (List PolicyRule)
  egress : Option (List PolicyRule)
  directions : List Direction
deriving DecidableEq

/-- The selector of the pods that carry some labels. -/
def matchLabels (labels : StringMap) : Json := .ofMembers [("matchLabels", .ofStringMap labels)]

@[simp]
theorem canonical_matchLabels (labels : StringMap) : (matchLabels labels).Canonical := by
  simp [matchLabels]

namespace PolicyPort

def toJson (port : PolicyPort) : Json :=
  .ofMembers [("port", .nat port.port), ("protocol", .string port.protocol)]

@[simp]
theorem canonical_toJson (port : PolicyPort) : port.toJson.Canonical := by simp [toJson]

end PolicyPort

namespace Direction

def name : Direction → String
  | ingress => "Ingress"
  | egress => "Egress"

/-- The name of the field that holds the peers of a rule. -/
def peerField : Direction → String
  | ingress => "from"
  | egress => "to"

end Direction

namespace PolicyRule

/-- A rule as it is written for traffic in a direction. -/
def toJson (direction : Direction) (rule : PolicyRule) : Json :=
  .ofOptional [
    (direction.peerField, rule.peers.map fun peers =>
      .array (peers.map fun labels => .ofMembers [("podSelector", matchLabels labels)])),
    ("ports", rule.ports.map fun ports => .array (ports.map PolicyPort.toJson))]

@[simp]
theorem canonical_toJson (direction : Direction) (rule : PolicyRule) :
    (rule.toJson direction).Canonical := by
  simp [toJson]

end PolicyRule

namespace PolicySpec

def toJson (spec : PolicySpec) : Json :=
  .ofOptional [
    ("podSelector", some (matchLabels spec.podSelector)),
    ("ingress", spec.ingress.map fun rules => .array (rules.map (PolicyRule.toJson .ingress))),
    ("egress", spec.egress.map fun rules => .array (rules.map (PolicyRule.toJson .egress))),
    ("policyTypes", some (.ofStrings (spec.directions.map Direction.name)))]

@[simp]
theorem canonical_toJson (spec : PolicySpec) : spec.toJson.Canonical := by simp [toJson]

/-- The object of a policy. -/
def toResource (spec : PolicySpec) (metadata : Meta) : Resource :=
  .ofBody .networkPolicy metadata [("spec", spec.toJson)] (by simp)

end PolicySpec

end NetLab
