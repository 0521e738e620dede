import NetLab.Proofs.Policy.Links

/-!
# What drift of a policy is found

A policy may be edited in the cluster.  The comparison lets the live policy hold more than the
desired one, as it does for every object, but what is added to a policy is not neutral: it narrows a
selector, or it widens a peer or a range of ports.  `Policy.AddsNothing` lists, part by part, what
can be added without being found.  A live policy in which no drift is found and to which none of
this was added has the meaning of the desired one; whatever was added to it, it restricts the same
directions, and no pod beside those that the desired one is about
(`Topology.meaning_of_settled`).
-/

namespace NetLab

open Kube
open Json (isSubset)

namespace Json

theorem mem_members_of_get {value member : Json} {name : String} (h : value.get name = member)
    (hmember : member ≠ .null) : (name, member) ∈ value.members := by
  cases value with
  | object members =>
    rcases get_eq_null_or_mem members name with hnull | hmem
    · exact absurd (h.symm.trans hnull) hmember
    · exact h ▸ hmem
  | null | bool _ | number _ | string _ | array _ => exact absurd h.symm hmember

/-- Arrays are compared item by item; what is not there has no items, unless it is added. -/
theorem items_of_isSubset {desired live : Json} (h : isSubset desired live = true)
    (hadded : desired = .null → live.items = []) :
    desired.items.length = live.items.length ∧
      ∀ pair ∈ desired.items.zip live.items, isSubset pair.1 pair.2 = true := by
  cases desired with
  | null =>
    rw [hadded rfl]
    exact ⟨rfl, List.forall_mem_nil _⟩
  | array items =>
    cases live with
    | array live => exact isSubset_array.1 h
    | null =>
      obtain rfl : items = [] := by simpa [isSubset] using h
      exact ⟨rfl, List.forall_mem_nil _⟩
    | bool _ | number _ | string _ | object _ => simp [isSubset] at h
  | bool _ | number _ | string _ =>
    obtain rfl := by simpa [isSubset] using h
    exact ⟨rfl, List.forall_mem_nil _⟩
  | object members =>
    have hlive : live.items = [] := by
      cases live with
      | array live => cases members <;> simp [isSubset] at h
      | null | bool _ | number _ | string _ | object _ => rfl
    rw [hlive]
    exact ⟨rfl, List.forall_mem_nil _⟩

/-- A test that two arrays pass item by item. -/
theorem any_items_eq {desired live : Json} {test : Json → Bool}
    (h : isSubset desired live = true) (hadded : desired = .null → live.items = [])
    (hitems : ∀ pair ∈ desired.items.zip live.items, isSubset pair.1 pair.2 = true →
      test pair.2 = test pair.1) : live.items.any test = desired.items.any test := by
  obtain ⟨hlength, hsubset⟩ := items_of_isSubset h hadded
  replace hitems := fun pair hmem => hitems pair hmem (hsubset pair hmem)
  clear hsubset h hadded
  generalize desired.items = items, live.items = others at *
  induction items generalizing others with
  | nil =>
    obtain rfl : others = [] := List.length_eq_zero_iff.1 hlength.symm
    rfl
  | cons item items ih =>
    cases others with
    | nil => cases hlength
    | cons other others =>
      rw [List.any_cons, List.any_cons, hitems (item, other) List.mem_cons_self,
        ih others (Nat.succ.inj hlength) fun pair hmem =>
          hitems pair (List.mem_cons_of_mem _ hmem)]

theorem isEmpty_items_eq {desired live : Json} (h : isSubset desired live = true)
    (hadded : desired = .null → live.items = []) :
    live.items.isEmpty = desired.items.isEmpty := by
  have hlength := (items_of_isSubset h hadded).1
  rw [Bool.eq_iff_iff, List.isEmpty_iff_length_eq_zero, List.isEmpty_iff_length_eq_zero, hlength]

end Json

namespace Policy

/-! ## Additions -/

/-- A selector asks for no other labels. -/
def SelectorAddsNothing (desired live : Json) : Prop :=
  (∀ member ∈ (live.get "matchLabels").members, member ∈ (desired.get "matchLabels").members) ∧
    (live.get "matchExpressions").items = []

/-- A peer is no block of addresses and in no other namespace, and has the same pods. -/
def PeerAddsNothing (desired live : Json) : Prop :=
  live.get "ipBlock" = .null ∧ live.get "namespaceSelector" = .null ∧
    SelectorAddsNothing (desired.get "podSelector") (live.get "podSelector")

/-- A rule names peers and ports only where it did, and its ports are no ranges. -/
def RuleAddsNothing (direction : Direction) (desired live : Json) : Prop :=
  (desired.get direction.peerField = .null → (live.get direction.peerField).items = []) ∧
    (desired.get "ports" = .null → (live.get "ports").items = []) ∧
    (∀ pair ∈ (desired.get direction.peerField).items.zip (live.get direction.peerField).items,
      PeerAddsNothing pair.1 pair.2) ∧
    ∀ port ∈ (live.get "ports").items, port.get "endPort" = .null

instance (desired live : Json) : Decidable (SelectorAddsNothing desired live) :=
  inferInstanceAs (Decidable (_ ∧ _))

instance (desired live : Json) : Decidable (PeerAddsNothing desired live) :=
  inferInstanceAs (Decidable (_ ∧ _))

instance (direction : Direction) (desired live : Json) :
    Decidable (RuleAddsNothing direction desired live) :=
  inferInstanceAs (Decidable (_ ∧ _))

/-- **Nothing was added to a policy** that gives it another meaning. -/
def AddsNothing (policy live : Resource) : Prop :=
  SelectorAddsNothing ((policy.get "spec").get "podSelector")
      ((live.get "spec").get "podSelector") ∧
    ∀ direction, ∀ pair ∈ ((policy.get "spec").get (Direction.ruleField direction)).items.zip
      ((live.get "spec").get direction.ruleField).items, RuleAddsNothing direction pair.1 pair.2

/-- **Two policies mean the same**: they restrict the same pods in the same directions, and there
they admit the same connections. -/
def SameMeaning (policy live : Resource) : Prop :=
  ∀ direction, (∀ pod, isolates direction pod live = isolates direction pod policy) ∧
    (restricts (policy.get "spec") direction = true → ∀ connection,
      admits direction connection live = admits direction connection policy)

/-! ## Selectors -/

section Selector

variable {wanted labels : StringMap} {live : Json}

theorem get_matchLabels (wanted : StringMap) :
    (matchLabels wanted).get "matchLabels" = .ofStringMap wanted := by
  simp [matchLabels, Json.get]

/-- A live selector in which nothing is missing selects no more than it should. -/
theorem carries_of_selects (h : isSubset (matchLabels wanted) live = true)
    (hselects : selects live labels = true) : Carries labels wanted := by
  intro name value hwanted
  have hget := Json.isSubset_path h ["matchLabels", name]
  have htext : (matchLabels wanted).path ["matchLabels", name] = .string value := by
    change ((matchLabels wanted).get "matchLabels").get name = .string value
    rw [get_matchLabels, Json.get, Json.get?_ofStringMap, hwanted]
    rfl
  rw [htext] at hget
  have hmem := Json.mem_members_of_get (Json.Exact.string _ _ hget).symm (by rintro ⟨⟩)
  simp only [selects, Bool.and_eq_true, List.all_eq_true] at hselects
  simpa using hselects.1 (name, .string value) hmem

/-- A live selector to which nothing was added selects what it should. -/
theorem selects_eq (h : isSubset (matchLabels wanted) live = true)
    (hadds : SelectorAddsNothing (matchLabels wanted) live) :
    selects live labels = selects (matchLabels wanted) labels := by
  refine Bool.eq_iff_iff.2 ⟨fun hselects => selects_matchLabels.2 (carries_of_selects h hselects),
    fun hselects => ?_⟩
  obtain ⟨hlabels, hrequirements⟩ := hadds
  simp only [selects, Bool.and_eq_true, List.all_eq_true] at hselects ⊢
  rw [hrequirements]
  exact ⟨fun member hmem => hselects.1 member (hlabels member hmem), List.forall_mem_nil _⟩

end Selector

/-! ## Peers, ports and rules -/

theorem admitsPeer_eq {wanted : StringMap} {namespaceName : Option String} {pod : Pod} {live : Json}
    (h : isSubset (.ofMembers [("podSelector", matchLabels wanted)]) live = true)
    (hadds : PeerAddsNothing (.ofMembers [("podSelector", matchLabels wanted)]) live) :
    admitsPeer namespaceName pod live =
      admitsPeer namespaceName pod (.ofMembers [("podSelector", matchLabels wanted)]) := by
  have hpods : (Json.ofMembers [("podSelector", matchLabels wanted)]).get "podSelector" =
      matchLabels wanted := by
    simp [Json.get]
  have hobject : matchLabels wanted = .object [("matchLabels", .ofStringMap wanted)] := rfl
  have hsubset := Json.isSubset_get h "podSelector"
  obtain ⟨hblock, hnamespaces, hselector⟩ := hadds
  rw [hpods] at hsubset hselector
  refine Bool.eq_iff_iff.2 ?_
  rw [admitsPeer_podSelector, ← selects_matchLabels, ← selects_eq hsubset hselector, admitsPeer,
    hblock, hnamespaces]
  cases hlive : live.get "podSelector" with
  | null =>
    -- A selector has to be there, as the desired peer has one.
    rw [hobject, hlive] at hsubset
    simp [isSubset] at hsubset
  | bool _ | number _ | string _ | array _ | object _ => simp

theorem admitsPort_eq {port : PolicyPort} {connection : Connection} {live : Json}
    (h : isSubset port.toJson live = true) (hadds : live.get "endPort" = .null) :
    admitsPort connection live = admitsPort connection port.toJson := by
  have hmembers (live : Json) (hport : live.get "port" = port.toJson.get "port")
      (hprotocol : live.get "protocol" = port.toJson.get "protocol")
      (hend : live.get "endPort" = port.toJson.get "endPort") :
      admitsPort connection live = admitsPort connection port.toJson := by
    rw [admitsPort, admitsPort, hport, hprotocol, hend]
  refine hmembers live ?_ ?_ ?_
  · have hport := Json.isSubset_get h "port"
    simpa [PolicyPort.toJson, Json.get, Json.nat, Json.int, isSubset] using hport
  · have hprotocol := Json.isSubset_get h "protocol"
    simpa [PolicyPort.toJson, Json.get, isSubset] using hprotocol
  · simpa [PolicyPort.toJson, Json.get] using hadds

theorem admitsRule_eq {rule : PolicyRule} {direction : Direction} {namespaceName : Option String}
    {connection : Connection} {live : Json} (h : isSubset (rule.toJson direction) live = true)
    (hadds : RuleAddsNothing direction (rule.toJson direction) live) :
    admitsRule direction namespaceName connection live =
      admitsRule direction namespaceName connection (rule.toJson direction) := by
  obtain ⟨hnoPeers, hnoPorts, hpeers, hports⟩ := hadds
  have hpeersSubset := Json.isSubset_get h direction.peerField
  have hportsSubset := Json.isSubset_get h "ports"
  have hpeersAny : (live.get direction.peerField).items.any
        (admitsPeer namespaceName (direction.peer connection)) =
      ((rule.toJson direction).get direction.peerField).items.any
        (admitsPeer namespaceName (direction.peer connection)) := by
    refine Json.any_items_eq hpeersSubset hnoPeers fun pair hmem hsubset => ?_
    have hadds := hpeers pair hmem
    have hdesired := (List.of_mem_zip hmem).1
    rw [items_peerField_toJson] at hdesired
    obtain ⟨wanted, -, hpeer⟩ := List.mem_map.1 hdesired
    rw [← hpeer] at hsubset hadds ⊢
    exact admitsPeer_eq hsubset hadds
  have hportsAny : (live.get "ports").items.any (admitsPort connection) =
      ((rule.toJson direction).get "ports").items.any (admitsPort connection) := by
    refine Json.any_items_eq hportsSubset hnoPorts fun pair hmem hsubset => ?_
    obtain ⟨hdesired, hlive⟩ := List.of_mem_zip hmem
    rw [items_ports_toJson] at hdesired
    obtain ⟨port, -, hport⟩ := List.mem_map.1 hdesired
    rw [← hport] at hsubset ⊢
    exact admitsPort_eq hsubset (hports _ hlive)
  rw [admitsRule, admitsRule, hpeersAny, hportsAny, Json.isEmpty_items_eq hpeersSubset hnoPeers,
    Json.isEmpty_items_eq hportsSubset hnoPorts]

/-! ## Policies -/

/-- A policy states which directions it restricts, and the rules for these. -/
structure States (spec : PolicySpec) : Prop where
  directions : spec.directions ≠ []
  rules : ∀ direction ∈ spec.directions, spec.toJson.get (Direction.ruleField direction) ≠ .null

theorem states_links (topology node : String) (peers : List String) :
    States (.links topology node peers) where
  directions := List.cons_ne_nil _ _
  rules direction _ := by
    cases direction <;>
      simp [PolicySpec.links, PolicySpec.toJson, Direction.ruleField, Json.get]

theorem states_management (topology : String) : States (.management topology) where
  directions := List.cons_ne_nil _ _
  rules direction hmem := by
    obtain rfl : direction = .ingress := by simpa [PolicySpec.management] using hmem
    simp [PolicySpec.management, PolicySpec.toJson, Direction.ruleField, Json.get]

section Spec

variable {spec : PolicySpec} {metadata : Meta} {live : Resource} (hstates : States spec)
  (h : isSubset spec.toJson (live.get "spec") = true)

include hstates h

/-- The directions are compared exactly. -/
theorem restricts_eq (direction : Direction) :
    restricts (live.get "spec") direction = restricts spec.toJson direction := by
  have htypes := Json.isSubset_get h "policyTypes"
  rw [get_policyTypes_toJson] at htypes
  have hexact : (live.get "spec").get "policyTypes" =
      .ofStrings (spec.directions.map Direction.name) := by
    cases hlive : (live.get "spec").get "policyTypes" with
    | array types =>
      rw [hlive] at htypes
      refine (Json.Exact.array_of_mem (fun item hitem other _ => ?_) htypes).symm
      obtain ⟨text, -, rfl⟩ := List.mem_map.1 hitem
      exact Json.Exact.string text other
    | null | bool _ | number _ | string _ | object _ =>
      rw [hlive] at htypes
      simp [Json.ofStrings, isSubset, hstates.directions] at htypes
  have hsome : (spec.toJson.get "policyTypes").items.isEmpty = false := by
    simp [get_policyTypes_toJson, Json.items, Json.asArray?, Json.ofStrings, hstates.directions]
  rw [restricts, restricts, hexact, ← get_policyTypes_toJson, if_neg (by simp [hsome]),
    if_neg (by simp [hsome])]

/-- A live policy in which nothing is missing restricts no other pods. -/
theorem isolates_of_isSubset (hnamespace : live.metadata.namespaceName = metadata.namespaceName)
    {direction : Direction} {pod : Pod} (hisolates : isolates direction pod live = true) :
    isolates direction pod (spec.toResource metadata) = true := by
  have hselector := Json.isSubset_get h "podSelector"
  rw [get_podSelector_toJson] at hselector
  simp only [isolates, Bool.and_eq_true, decide_eq_true_eq, restricts_eq hstates h] at hisolates
  obtain ⟨⟨hnamespace', hselects⟩, hrestricts⟩ := hisolates
  rw [isolates, PolicySpec.get_spec_toResource, get_podSelector_toJson, hrestricts,
    selects_matchLabels.2 (carries_of_selects hselector hselects)]
  simp [← hnamespace', hnamespace, PolicySpec.toResource]

/-- **A live policy in which nothing is missing, and to which nothing was added, means the same.** -/
theorem sameMeaning_toResource
    (hnamespace : live.metadata.namespaceName = metadata.namespaceName)
    (hadds : AddsNothing (spec.toResource metadata) live) :
    SameMeaning (spec.toResource metadata) live := by
  obtain ⟨hselector, hrules⟩ := hadds
  rw [PolicySpec.get_spec_toResource, get_podSelector_toJson] at hselector
  have hmetadata : (spec.toResource metadata).metadata = metadata := rfl
  refine fun direction => ⟨fun pod => ?_, fun hrestricts connection => ?_⟩
  · have hpods := Json.isSubset_get h "podSelector"
    rw [get_podSelector_toJson] at hpods
    rw [isolates, isolates, PolicySpec.get_spec_toResource, get_podSelector_toJson,
      restricts_eq hstates h, hnamespace, hmetadata, selects_eq hpods hselector]
  · rw [PolicySpec.get_spec_toResource, restricts_toJson hstates.directions] at hrestricts
    have hsubset := Json.isSubset_get h direction.ruleField
    rw [admits, admits, PolicySpec.get_spec_toResource, hnamespace, hmetadata]
    refine Json.any_items_eq hsubset (fun hnull => absurd hnull (hstates.rules _ hrestricts))
      fun pair hmem hrule => ?_
    have hadds := hrules direction pair (by rwa [PolicySpec.get_spec_toResource])
    have hdesired := (List.of_mem_zip hmem).1
    rw [items_ruleField_toJson] at hdesired
    obtain ⟨rule, -, heq⟩ := List.mem_map.1 hdesired
    rw [← heq] at hrule hadds ⊢
    exact admitsRule_eq hrule hadds

end Spec

/-- A policy that means the same as another one can take its place among any others. -/
theorem SameMeaning.permits_eq {policy live : Resource} (h : SameMeaning policy live)
    (others : List Resource) (direction : Direction) (connection : Connection) :
    permits (live :: others) direction connection =
      permits (policy :: others) direction connection := by
  obtain ⟨hisolates, hadmits⟩ := h direction
  rw [permits, permits, List.filter_cons, List.filter_cons, hisolates]
  split
  · rename_i hisolated
    simp only [isolates, Bool.and_eq_true] at hisolated
    rw [List.any_cons, List.any_cons, hadmits hisolated.2]
    rfl
  · rfl

end Policy

namespace Topology

variable {t : Topology} {namespaceName : String} {policy live : Resource}

theorem exists_states_of_mem_policies
    (h : policy ∈ (t.policies namespaceName).map PlannedObject.object) :
    ∃ spec metadata, Policy.States spec ∧ policy = spec.toResource metadata ∧
      metadata.namespaceName = some namespaceName := by
  rcases mem_policies.1 h with ⟨node, -, rfl⟩ | rfl
  · exact ⟨_, _, Policy.states_links _ _ _, rfl, rfl⟩
  · exact ⟨_, _, Policy.states_management _, rfl, rfl⟩

/-- **What a live policy means in which no drift is found**: it restricts no other pods than the
desired policy and in the same directions, and if nothing was added to it, it means the same. -/
theorem meaning_of_settled
    (hpolicy : policy ∈ (t.policies namespaceName).map PlannedObject.object)
    (hnamespace : live.metadata.namespaceName = some namespaceName)
    (hsettled : policy.needsUpdate live = false) :
    (∀ direction, Policy.restricts (live.get "spec") direction =
        Policy.restricts (policy.get "spec") direction ∧
      ∀ pod, Policy.isolates direction pod live = true →
        Policy.isolates direction pod policy = true) ∧
      (Policy.AddsNothing policy live → Policy.SameMeaning policy live) := by
  obtain ⟨spec, metadata, hstates, rfl, hmetadata⟩ := exists_states_of_mem_policies hpolicy
  have hdrift : Drift.networkPolicy (spec.toResource metadata) live = false :=
    Resource.drift_of_settled hsettled
  rw [Drift.networkPolicy, PolicySpec.get_spec_toResource, Bool.not_eq_false'] at hdrift
  have hsame := hnamespace.trans hmetadata.symm
  refine ⟨fun direction => ⟨?_, fun pod => ?_⟩, ?_⟩
  · rw [PolicySpec.get_spec_toResource]
    exact Policy.restricts_eq hstates hdrift direction
  · exact Policy.isolates_of_isSubset hstates hdrift hsame
  · exact Policy.sameMeaning_toResource hstates hdrift hsame

/-! ## A policy that somebody has widened -/

/-- The policy of the node `r1` of three nodes, which is linked to `r2`. -/
def linkedPolicy : Resource := linkPolicy "lab" "r1" ["r2"] "sim"

theorem linkedPolicy_mem :
    linkedPolicy ∈ (threeNodes.policies "sim").map PlannedObject.object := by
  have hpeers : threeNodes.linkedPeers "r1" = ["r2"] := by decide +kernel
  exact mem_policies.2 (.inl ⟨"r1", by decide +kernel, by rw [hpeers]; rfl⟩)

/-- The policy with another range of ports, which begins with that of the name servers. -/
def widenedPolicy : Resource :=
  let peerRules (direction : Direction) :=
    (PolicySpec.peerRules "lab" ["r2"]).map (PolicyRule.toJson direction)
  linkedPolicy.set "spec" (.ofMembers [
    ("podSelector", matchLabels (Labels.selector "lab" "r1")),
    ("ingress", .array (peerRules .ingress)),
    ("egress", .array (.ofMembers [("ports", .array [
      PolicyPort.toJson ⟨53, "UDP"⟩,
      .ofMembers [("port", .nat 53), ("endPort", .nat 65535), ("protocol", .string "TCP")]])] ::
        peerRules .egress)),
    ("policyTypes", .ofStrings ["Ingress", "Egress"])])

/-- No drift is found in it, though it lets the node talk to a node that it is not linked to. -/
theorem widenedPolicy_settles :
    linkedPolicy.needsUpdate widenedPolicy = false ∧
      Policy.admits .egress ⟨threeNodesPod "r1", threeNodesPod "r3", "TCP", some 830⟩
        linkedPolicy = false ∧
      Policy.admits .egress ⟨threeNodesPod "r1", threeNodesPod "r3", "TCP", some 830⟩
        widenedPolicy = true := by
  decide +kernel

/-- What a server notes about a policy has no meaning. -/
theorem noted_policy_means_the_same :
    Policy.SameMeaning linkedPolicy (linkedPolicy.withVersion (some "7")) := by
  refine (meaning_of_settled linkedPolicy_mem rfl (by decide +kernel)).2
    ⟨by decide +kernel, fun direction => ?_⟩
  cases direction <;> decide +kernel

/-- **Not every edit of a policy is found.** -/
theorem not_every_policy_edit_is_found : ¬ ∀ (t : Topology) (namespaceName : String)
    (policy live : Resource), policy ∈ (t.policies namespaceName).map PlannedObject.object →
      live.key = policy.key → live.metadata.namespaceName = some namespaceName →
        policy.needsUpdate live = false → Policy.SameMeaning policy live := by
  intro hfound
  obtain ⟨hsettled, hdenied, hadmitted⟩ := widenedPolicy_settles
  have hsame := hfound threeNodes "sim" linkedPolicy widenedPolicy linkedPolicy_mem rfl rfl hsettled
  have hrestricts : Policy.restricts (linkedPolicy.get "spec") .egress = true := by decide +kernel
  have hadmits := (hsame .egress).2 hrestricts
    ⟨threeNodesPod "r1", threeNodesPod "r3", "TCP", some 830⟩
  rw [hdenied, hadmitted] at hadmits
  cases hadmits

end Topology

end NetLab
