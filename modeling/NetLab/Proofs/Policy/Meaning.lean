import NetLab.Policy.Spec
import NetLab.Proofs.Drift.Policies

/-!
# What network policies mean

Which connections the network policies of a cluster let through.  A policy is about the pods of its
namespace that its selector selects.  A pod that no policy restricts in a direction is open in that
direction; any other pod takes part in what a rule of one of these policies admits, so policies only
add to each other.  A connection goes through if its source may send it and its destination may
receive it (`Policy.permitted`).

All of this is read off manifests, whoever wrote them.  The second part says what it comes to for
the selectors, peers, ports and rules that the operator writes.
-/

namespace NetLab

open Kube

/-- The items of an array; nothing else has any. -/
def Json.items (value : Json) : List Json := value.asArray?.getD []

/-- The members of an object; nothing else has any. -/
def Json.members (value : Json) : List (String × Json) := value.asObject?.getD []

/-- A pod, as far as policies look at it. -/
structure Pod where
  namespaceName : String
  /-- The labels of the namespace. -/
  namespaceLabels : StringMap
  labels : StringMap
  /-- Whether the address of the pod is in a block of addresses, as a peer states it. -/
  inBlock : Json → Bool
  /-- The number of a port by its protocol and name. -/
  portNamed? : String → String → Option Nat

/-- A connection from one pod to another. -/
structure Connection where
  source : Pod
  destination : Pod
  protocol : String
  /-- The port of the destination, if the protocol has ports. -/
  port? : Option Nat

namespace Direction

/-- The field that holds the rules for a direction. -/
def ruleField : Direction → String
  | ingress => "ingress"
  | egress => "egress"

/-- The pod at whose end a connection is restricted. -/
def subject : Direction → Connection → Pod
  | ingress => Connection.destination
  | egress => Connection.source

/-- The pod at the other end. -/
def peer : Direction → Connection → Pod
  | ingress => Connection.source
  | egress => Connection.destination

end Direction

namespace Policy

/-! ## Reading manifests -/

/-- Labels meet a requirement of a selector. -/
def meets (labels : StringMap) (requirement : Json) : Bool :=
  let value? := (requirement.get "key").asString?.bind labels.get?
  let values := (requirement.get "values").items
  match (requirement.get "operator").asString? with
  | some "In" => value?.any fun value => values.contains (.string value)
  | some "NotIn" => value?.all fun value => !values.contains (.string value)
  | some "Exists" => value?.isSome
  | some "DoesNotExist" => value?.isNone
  | _ => false

/-- A selector selects what carries all its labels and meets all its requirements. -/
def selects (selector : Json) (labels : StringMap) : Bool :=
  ((selector.get "matchLabels").members.all fun (name, value) =>
    (labels.get? name).map Json.string = some value) &&
  (selector.get "matchExpressions").items.all (meets labels)

/-- A peer of a rule is a block of addresses, or it is the selected pods of the selected namespaces:
without a selector for namespaces of that of the policy, without a selector for pods all of them. -/
def admitsPeer (namespaceName : Option String) (pod : Pod) (peer : Json) : Bool :=
  match peer.get "ipBlock", peer.get "namespaceSelector", peer.get "podSelector" with
  | .null, .null, .null => false
  | .null, .null, pods => namespaceName = some pod.namespaceName && selects pods pod.labels
  | .null, namespaces, pods => selects namespaces pod.namespaceLabels && selects pods pod.labels
  | block, _, _ => pod.inBlock block

/-- A port of a rule is a number or a name, or all numbers up to another one, or any port at all;
the protocol is `TCP` unless it says otherwise. -/
def admitsPort (connection : Connection) (port : Json) : Bool :=
  let protocol := (port.get "protocol").asString?.getD "TCP"
  connection.protocol = protocol &&
    match port.get "port" with
    | .null => true
    | .string name =>
      connection.port?.any fun number =>
        connection.destination.portNamed? protocol name = some number
    | first =>
      let last := if port.get "endPort" = .null then first else port.get "endPort"
      connection.port?.any fun (number : Nat) =>
        first.asInt?.any (· ≤ (number : Int)) && last.asInt?.any ((number : Int) ≤ ·)

/-- A rule admits its peers on its ports: any peer if it names none, anything if it names no
port. -/
def admitsRule (direction : Direction) (namespaceName : Option String) (connection : Connection)
    (rule : Json) : Bool :=
  let peers := (rule.get direction.peerField).items
  let ports := (rule.get "ports").items
  (peers.isEmpty || peers.any (admitsPeer namespaceName (direction.peer connection))) &&
    (ports.isEmpty || ports.any (admitsPort connection))

/-- The directions that a policy restricts: those it states, or else traffic into its pods, and
traffic out of them if it has rules for that. -/
def restricts (spec : Json) (direction : Direction) : Bool :=
  let types := (spec.get "policyTypes").items
  if types.isEmpty then direction = .ingress || !(spec.get "egress").items.isEmpty
  else types.contains (.string direction.name)

/-- A policy restricts a pod in a direction. -/
def isolates (direction : Direction) (pod : Pod) (policy : Resource) : Bool :=
  policy.metadata.namespaceName = some pod.namespaceName &&
    selects ((policy.get "spec").get "podSelector") pod.labels &&
    restricts (policy.get "spec") direction

/-- A rule of a policy admits a connection. -/
def admits (direction : Direction) (connection : Connection) (policy : Resource) : Bool :=
  ((policy.get "spec").get direction.ruleField).items.any
    (admitsRule direction policy.metadata.namespaceName connection)

/-- Policies permit a connection at one of its ends. -/
def permits (policies : List Resource) (direction : Direction) (connection : Connection) : Bool :=
  let isolating := policies.filter (isolates direction (direction.subject connection))
  isolating.isEmpty || isolating.any (admits direction connection)

/-- Policies permit a connection. -/
def permitted (policies : List Resource) (connection : Connection) : Bool :=
  permits policies .egress connection && permits policies .ingress connection

theorem permits_iff {policies : List Resource} {direction : Direction} {connection : Connection} :
    permits policies direction connection = true ↔
      (∀ policy ∈ policies, isolates direction (direction.subject connection) policy = false) ∨
        ∃ policy ∈ policies, isolates direction (direction.subject connection) policy = true ∧
          admits direction connection policy = true := by
  simp [permits]

/-! ## What the operator writes -/

/-- Labels that are all there. -/
def Carries (labels wanted : StringMap) : Prop :=
  ∀ name value, wanted.get? name = some value → labels.get? name = some value

theorem selects_matchLabels {wanted labels : StringMap} :
    selects (matchLabels wanted) labels = true ↔ Carries labels wanted := by
  have hlabels : (matchLabels wanted).get "matchLabels" = .ofStringMap wanted := by
    simp [matchLabels, Json.get]
  have hrequirements : (matchLabels wanted).get "matchExpressions" = .null := by
    simp [matchLabels, Json.get]
  have hmembers : (Json.ofStringMap wanted).members =
      wanted.entries.map fun entry => (entry.1, .string entry.2) := rfl
  have hitems : Json.null.items = [] := rfl
  simp [selects, hlabels, hrequirements, hmembers, hitems, Carries, SortedMap.get?_eq_some_iff]

theorem admitsPeer_podSelector {wanted : StringMap} {namespaceName : Option String} {pod : Pod} :
    admitsPeer namespaceName pod (.ofMembers [("podSelector", matchLabels wanted)]) = true ↔
      namespaceName = some pod.namespaceName ∧ Carries pod.labels wanted := by
  have hpods : (Json.ofMembers [("podSelector", matchLabels wanted)]).get "podSelector" =
      matchLabels wanted := by
    simp [Json.get]
  have hothers (name : String) (hne : name ≠ "podSelector") :
      (Json.ofMembers [("podSelector", matchLabels wanted)]).get name = .null := by
    simp [Json.get, hne]
  have hobject : matchLabels wanted = .object [("matchLabels", .ofStringMap wanted)] := rfl
  rw [admitsPeer, hpods, hothers _ (by decide), hothers _ (by decide), ← selects_matchLabels,
    hobject]
  simp

theorem admitsPort_toJson {port : PolicyPort} {connection : Connection} :
    admitsPort connection port.toJson = true ↔
      connection.protocol = port.protocol ∧ connection.port? = some port.port := by
  have hprotocol : port.toJson.get "protocol" = .string port.protocol := by
    simp [PolicyPort.toJson, Json.get]
  have hport : port.toJson.get "port" = .number (.int port.port) := by
    simp [PolicyPort.toJson, Json.get, Json.nat]
  have hend : port.toJson.get "endPort" = .null := by
    simp [PolicyPort.toJson, Json.get]
  have hnumber : (connection.port?.any fun (number : Nat) =>
      decide ((port.port : Int) ≤ number) && decide ((number : Int) ≤ port.port)) = true ↔
        connection.port? = some port.port := by
    cases connection.port? with
    | none => simp
    | some number =>
      simp only [Option.any_some, Bool.and_eq_true, decide_eq_true_eq, Option.some.injEq]
      omega
  rw [admitsPort, hprotocol, hport, hend, Bool.and_eq_true]
  exact and_congr decide_eq_true_iff hnumber

theorem items_peerField_toJson (rule : PolicyRule) (direction : Direction) :
    ((rule.toJson direction).get direction.peerField).items =
      (rule.peers.getD []).map fun wanted => .ofMembers [("podSelector", matchLabels wanted)] := by
  cases direction <;> cases hrule : rule.peers <;>
    simp [PolicyRule.toJson, Direction.peerField, Json.get, hrule, Json.items, Json.asArray?]

theorem items_ports_toJson (rule : PolicyRule) (direction : Direction) :
    ((rule.toJson direction).get "ports").items = (rule.ports.getD []).map PolicyPort.toJson := by
  cases direction <;> cases hrule : rule.ports <;>
    simp [PolicyRule.toJson, Direction.peerField, Json.get, hrule, Json.items, Json.asArray?]

theorem admitsRule_toJson {rule : PolicyRule} {direction : Direction}
    {namespaceName : Option String} {connection : Connection} :
    admitsRule direction namespaceName connection (rule.toJson direction) = true ↔
      (rule.peers.getD [] = [] ∨ ∃ wanted ∈ rule.peers.getD [],
        namespaceName = some (direction.peer connection).namespaceName ∧
          Carries (direction.peer connection).labels wanted) ∧
      (rule.ports.getD [] = [] ∨ ∃ port ∈ rule.ports.getD [],
        connection.protocol = port.protocol ∧ connection.port? = some port.port) := by
  simp only [admitsRule, items_peerField_toJson, items_ports_toJson, Bool.and_eq_true,
    Bool.or_eq_true, List.isEmpty_iff, List.map_eq_nil_iff, List.any_map, List.any_eq_true,
    Function.comp_apply, admitsPort_toJson, admitsPeer_podSelector]

section Spec

variable {spec : PolicySpec} {metadata : Meta}

theorem get_podSelector_toJson (spec : PolicySpec) :
    spec.toJson.get "podSelector" = matchLabels spec.podSelector := by
  simp [PolicySpec.toJson, Json.get]

theorem get_policyTypes_toJson (spec : PolicySpec) :
    spec.toJson.get "policyTypes" = .ofStrings (spec.directions.map Direction.name) := by
  simp [PolicySpec.toJson, Json.get]

theorem restricts_toJson {direction : Direction} (hstated : spec.directions ≠ []) :
    restricts spec.toJson direction = true ↔ direction ∈ spec.directions := by
  have htypes : (spec.toJson.get "policyTypes").items =
      spec.directions.map fun stated => .string stated.name := by
    simp [get_policyTypes_toJson, Json.items, Json.asArray?, Json.ofStrings]
  have hname {stated : Direction} : stated.name = direction.name ↔ stated = direction := by
    cases stated <;> cases direction <;> decide
  simp [restricts, htypes, hstated, hname]

/-- Whom a policy of the operator restricts, which always states the directions. -/
theorem isolates_toResource {direction : Direction} {pod : Pod} (hstated : spec.directions ≠ []) :
    isolates direction pod (spec.toResource metadata) = true ↔
      metadata.namespaceName = some pod.namespaceName ∧ Carries pod.labels spec.podSelector ∧
        direction ∈ spec.directions := by
  have hmetadata : (spec.toResource metadata).metadata = metadata := rfl
  simp only [isolates, hmetadata, PolicySpec.get_spec_toResource, get_podSelector_toJson,
    Bool.and_eq_true, decide_eq_true_eq, selects_matchLabels, restricts_toJson hstated, and_assoc]

/-- The rules of a policy for a direction. -/
def rules (spec : PolicySpec) : Direction → List PolicyRule
  | .ingress => spec.ingress.getD []
  | .egress => spec.egress.getD []

theorem items_ruleField_toJson (spec : PolicySpec) (direction : Direction) :
    (spec.toJson.get direction.ruleField).items =
      (rules spec direction).map (PolicyRule.toJson direction) := by
  cases direction
  · cases hspec : spec.ingress <;>
      simp [PolicySpec.toJson, Direction.ruleField, Json.get, rules, hspec, Json.items,
        Json.asArray?]
  · cases hspec : spec.egress <;>
      simp [PolicySpec.toJson, Direction.ruleField, Json.get, rules, hspec, Json.items,
        Json.asArray?]

theorem admits_toResource {direction : Direction} {connection : Connection} :
    admits direction connection (spec.toResource metadata) = true ↔
      ∃ rule ∈ rules spec direction,
        admitsRule direction metadata.namespaceName connection (rule.toJson direction) = true := by
  have hmetadata : (spec.toResource metadata).metadata = metadata := rfl
  simp only [admits, hmetadata, PolicySpec.get_spec_toResource, items_ruleField_toJson,
    List.any_map, List.any_eq_true, Function.comp_apply]

end Spec

end Policy

end NetLab
