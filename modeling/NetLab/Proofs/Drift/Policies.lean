import NetLab.Proofs.Render.Identity

/-!
# Drift of policies

The comparison of two policies of one node is exact: the rules name the peers, as many as there
are, and nothing else differs.  So two policies in which no drift is found are the same
(`linkPolicy_eq_of_settled`, `managementPolicy_eq_of_settled`).
-/

namespace NetLab

open Kube
open Json (isSubset Exact)

namespace PolicySpec

theorem get_spec_toResource (spec : PolicySpec) (metadata : Meta) :
    (spec.toResource metadata).get "spec" = spec.toJson := by
  simp [toResource, Json.get]

theorem exact_matchLabels (topology node node' : String) :
    Exact (matchLabels (Labels.selector topology node))
      (matchLabels (Labels.selector topology node')) := by
  have hselector : Exact (.ofStringMap (Labels.selector topology node))
      (.ofStringMap (Labels.selector topology node')) := by
    rw [Labels.selector, Labels.selector, Json.ofStringMap_ofList, Json.ofStringMap_ofList]
    exact .ofMembers [(Labels.topology, .string topology, .string topology),
      (Labels.node, .string node, .string node')] (by simp [Exact.string])
  exact .ofMembers [("matchLabels", .ofStringMap (Labels.selector topology node),
    .ofStringMap (Labels.selector topology node'))] (by simpa using hselector)

/-- The rules for two lists of peers. -/
theorem exact_peerRules (direction : Direction) (topology : String) (peers peers' : List String) :
    ∀ rule ∈ (peerRules topology peers).map (PolicyRule.toJson direction),
      ∀ rule' ∈ (peerRules topology peers').map (PolicyRule.toJson direction),
        Exact rule rule' := by
  have hrule (peers : List String) :
      ∀ rule ∈ (peerRules topology peers).map (PolicyRule.toJson direction),
        rule = .ofMembers [(direction.peerField, .array (peers.map fun peer =>
          .ofMembers [("podSelector", matchLabels (Labels.selector topology peer))]))] := by
    intro written hmem
    obtain ⟨rule, hrule, rfl⟩ := List.mem_map.1 hmem
    unfold peerRules at hrule
    split at hrule
    · cases hrule
    · obtain rfl := List.mem_singleton.1 hrule
      simp [PolicyRule.toJson, Json.ofOptional, Function.comp_def]
  intro rule hmem rule' hmem'
  rw [hrule peers rule hmem, hrule peers' rule' hmem']
  have hpeers : Exact
      (.array (peers.map fun peer =>
        .ofMembers [("podSelector", matchLabels (Labels.selector topology peer))]))
      (.array (peers'.map fun peer =>
        .ofMembers [("podSelector", matchLabels (Labels.selector topology peer))])) := by
    refine .array_map (fun peer peer' => ?_) peers peers'
    exact .ofMembers [("podSelector", matchLabels (Labels.selector topology peer),
      matchLabels (Labels.selector topology peer'))] (by simp [exact_matchLabels])
  exact .ofMembers [(direction.peerField, _, _)] (by simpa using hpeers)

/-- Two policies of one node. -/
theorem exact_links (topology node : String) (peers peers' : List String) :
    Exact (links topology node peers).toJson (links topology node peers').toJson := by
  have hmembers (peers : List String) : (links topology node peers).toJson = .ofMembers [
      ("podSelector", matchLabels (Labels.selector topology node)),
      ("ingress", .array ((peerRules topology peers).map (PolicyRule.toJson .ingress))),
      ("egress", .array (nameService.toJson .egress ::
        (peerRules topology peers).map (PolicyRule.toJson .egress))),
      ("policyTypes", .ofStrings ["Ingress", "Egress"])] := rfl
  have hingress := Exact.array_of_mem (exact_peerRules .ingress topology peers peers')
  have hegress : Exact
      (.array (nameService.toJson .egress ::
        (peerRules topology peers).map (PolicyRule.toJson .egress)))
      (.array (nameService.toJson .egress ::
        (peerRules topology peers').map (PolicyRule.toJson .egress))) := by
    refine .array fun pair hmem => ?_
    rcases List.mem_cons.1 hmem with rfl | hmem
    · exact .refl _
    · have hrules := List.of_mem_zip hmem
      exact exact_peerRules .egress topology peers peers' _ hrules.1 _ hrules.2
  rw [hmembers, hmembers]
  exact .ofMembers [("podSelector", _, _), ("ingress", _, _), ("egress", _, _),
    ("policyTypes", _, _)] (by simp [hingress, hegress])

end PolicySpec

/-! ## The policies of a topology -/

/-- Two policies of one kind and metadata, whose specs are compared exactly. -/
theorem toResource_eq_of_settled {spec spec' : PolicySpec} {metadata : Meta}
    (hexact : Exact spec.toJson spec'.toJson)
    (h : (spec.toResource metadata).needsUpdate (spec'.toResource metadata) = false) :
    spec.toResource metadata = spec'.toResource metadata := by
  have hdrift : Drift.networkPolicy (spec.toResource metadata) (spec'.toResource metadata) =
      false := Resource.drift_of_settled h
  rw [Drift.networkPolicy, PolicySpec.get_spec_toResource, PolicySpec.get_spec_toResource,
    Bool.not_eq_false'] at hdrift
  simp only [PolicySpec.toResource, hexact hdrift]

theorem label?_linkPolicy (topology node namespaceName name : String) (peers : List String) :
    (linkPolicy topology node peers namespaceName).label? name =
      if name = Labels.policyType then some "links"
      else (Labels.identity topology node).get? name := by
  simp [linkPolicy, PolicySpec.toResource, policyMetadata, Resource.label?, Meta.label?]

theorem label?_managementPolicy (topology namespaceName name : String) :
    (managementPolicy topology namespaceName).label? name =
      (SortedMap.ofList [(Labels.managedBy, Labels.manager), (Labels.topology, topology),
        (Labels.policyType, "management")]).get? name := by
  simp [managementPolicy, PolicySpec.toResource, policyMetadata, Resource.label?, Meta.label?]

theorem linkPolicy_eq_of_settled {topology topology' node node' namespaceName : String}
    {peers peers' : List String}
    (h : (linkPolicy topology node peers namespaceName).needsUpdate
      (linkPolicy topology' node' peers' namespaceName) = false) :
    linkPolicy topology node peers namespaceName =
      linkPolicy topology' node' peers' namespaceName := by
  have htopology : topology = topology' := by
    have hne : Labels.topology ≠ Labels.node := by decide
    have hne' : Labels.topology ≠ Labels.policyType := by decide
    simpa [label?_linkPolicy, Labels.identity, hne, hne'] using
      Resource.label?_of_settled h Labels.topology
  have hnode : node = node' := by
    have hne : Labels.node ≠ Labels.policyType := by decide
    simpa [label?_linkPolicy, Labels.identity, hne] using
      Resource.label?_of_settled h Labels.node
  subst htopology hnode
  exact toResource_eq_of_settled (PolicySpec.exact_links topology node peers peers') h

theorem managementPolicy_eq_of_settled {topology topology' namespaceName : String}
    (h : (managementPolicy topology namespaceName).needsUpdate
      (managementPolicy topology' namespaceName) = false) :
    managementPolicy topology namespaceName = managementPolicy topology' namespaceName := by
  have hne : Labels.topology ≠ Labels.policyType := by decide
  have htopology : topology = topology' := by
    simpa [label?_managementPolicy, hne] using Resource.label?_of_settled h Labels.topology
  rw [htopology]

/-- The label for what a policy does tells the two kinds of policies apart. -/
theorem label?_linkPolicy_ne_managementPolicy
    (topology topology' node namespaceName namespaceName' : String) (peers : List String) :
    (linkPolicy topology node peers namespaceName).label? Labels.policyType ≠
      (managementPolicy topology' namespaceName').label? Labels.policyType := by
  simp [label?_linkPolicy, label?_managementPolicy]

end NetLab
