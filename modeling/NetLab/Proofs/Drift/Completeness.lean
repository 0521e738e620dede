import NetLab.Proofs.Drift.Policies
import NetLab.Proofs.Drift.Workloads

/-!
# Every edit but one is found

What a topology asks for is what is rendered for its nodes, and its policies.  If two versions of a
topology ask for an object under one key and no drift is found between the two, then the objects say
the same exactly if no single entry of resource requirements was dropped (`Completeness.same_iff_keepsEntries`).  Every
other edit is found: the comparison is exact for ConfigMaps, Services and policies, and for
workloads in everything else.

An entry that was dropped stays in the cluster (`Completeness.dropped_entry_stays`).
-/

namespace NetLab

open Kube

namespace NodeContext

variable {ctx ctx' : NodeContext}

theorem configMap_eq_of_settled (h : ctx.Identified) (h' : ctx'.Identified)
    (hnamespace : ctx.namespaceName = ctx'.namespaceName) {bundle bundle' : ConfigBundle}
    (hname : bundle.name = bundle'.name)
    (hsettled : (configMap (ctx.metadata bundle.name) bundle).needsUpdate
      (configMap (ctx'.metadata bundle'.name) bundle') = false) :
    configMap (ctx.metadata bundle.name) bundle =
      configMap (ctx'.metadata bundle'.name) bundle' := by
  have hagrees := agrees_of_labels h h' (Drift.labels_of_metadata
    (Resource.metadata_of_settled hsettled))
  have hdata : Json.ofStringMap bundle.data = .ofStringMap bundle'.data := by
    have hdrift : Drift.configMap (configMap (ctx.metadata bundle.name) bundle)
      (configMap (ctx'.metadata bundle'.name) bundle') = false := Resource.drift_of_settled hsettled
    simpa [Drift.configMap, configMap, Json.get, Drift.textsOrNone, Json.ofStringMap, Json.ofMap]
      using hdrift
  simp only [configMap, hagrees.metadata hnamespace, hname, hdata]

theorem service_eq_of_settled (h : ctx.Identified) (h' : ctx'.Identified)
    (hnamespace : ctx.namespaceName = ctx'.namespaceName) (hname : ctx.name = ctx'.name)
    (hsettled : ctx.service.needsUpdate ctx'.service = false) : ctx.service = ctx'.service := by
  have hagrees := agrees_of_labels h h' (Drift.labels_of_metadata
    (Resource.metadata_of_settled hsettled))
  simp only [service, hagrees.metadata hnamespace, hname, hagrees.selector]

end NodeContext

/-- The object is one of those that a topology asks for in a namespace. -/
def Topology.AsksFor (t : Topology) (c : Classifier) (namespaceName : String) (object : Resource) :
    Prop :=
  (∃ rendered, t.render c namespaceName = .ok rendered ∧
      ∃ planned ∈ NodePlan.allObjects (rendered.map fun _ node => node.plan),
        planned.object = object) ∨
    ∃ planned ∈ t.policies namespaceName, planned.object = object

/-- What topologies ask for. -/
inductive Requested (namespaceName : String) : Resource → Prop where
  | configMap {ctx : NodeContext} (hctx : ctx.Identified)
      (hnamespace : ctx.namespaceName = namespaceName) (bundle : ConfigBundle) :
      Requested namespaceName (NodeContext.configMap (ctx.metadata bundle.name) bundle)
  | deployment {ctx : NodeContext} (hctx : ctx.Identified)
      (hnamespace : ctx.namespaceName = namespaceName) (bundle? : Option ConfigBundle) :
      Requested namespaceName (ctx.deployment bundle?)
  | virtualMachine {ctx : NodeContext} (hctx : ctx.Identified)
      (hnamespace : ctx.namespaceName = namespaceName) (defaults : VmDefaults)
      (bundle? : Option ConfigBundle) : Requested namespaceName (ctx.virtualMachine defaults bundle?)
  | service {ctx : NodeContext} (hctx : ctx.Identified)
      (hnamespace : ctx.namespaceName = namespaceName) : Requested namespaceName ctx.service
  | linkPolicy (topology node : String) (peers : List String) :
      Requested namespaceName (linkPolicy topology node peers namespaceName)
  | managementPolicy (topology : String) :
      Requested namespaceName (managementPolicy topology namespaceName)

namespace Requested

variable {namespaceName : String} {new old : Resource}

theorem of_asksFor {t : Topology} {c : Classifier} (h : t.AsksFor c namespaceName new) :
    Requested namespaceName new := by
  rcases h with ⟨rendered, hrender, planned, hmem, rfl⟩ | ⟨planned, hmem, rfl⟩
  · obtain ⟨entry, hentry, hplanned⟩ := List.mem_flatMap.1 hmem
    obtain ⟨node, hnode, rfl⟩ := List.mem_map.1 hentry
    obtain ⟨definition, bundle?, -, -, hrendered⟩ := t.isRendered_of_render hrender node hnode
    have hctx := t.identified_context c namespaceName node.1 definition
    rw [hrendered] at hplanned
    rcases NodeContext.mem_objects _ _ _ hplanned with ⟨bundle, -, rfl⟩ | rfl | rfl
    · exact .configMap hctx rfl bundle
    · simp only [NodeContext.workload]
      split
      · exact .deployment hctx rfl bundle?
      · exact .virtualMachine hctx rfl _ bundle?
    · exact .service hctx rfl
  · obtain ⟨object, hobject, rfl⟩ := List.mem_map.1 (List.mem_mergeSort.1 hmem)
    rcases List.mem_append.1 hobject with hlink | hmanagement
    · obtain ⟨node, -, rfl⟩ := List.mem_map.1 hlink
      exact .linkPolicy _ node _
    · obtain rfl := List.mem_singleton.1 hmanagement
      exact .managementPolicy _

/-- Objects that are equal say the same, and none of their entries was dropped. -/
theorem settled_iff_of_eq (h : new = old) :
    new.toJson.compact = old.toJson.compact ↔ new.KeepsEntries old := by
  subst h
  exact iff_of_true rfl fun _ _ _ _ hentry => hentry

theorem settled_iff (hnew : Requested namespaceName new) (hold : Requested namespaceName old)
    (hkey : new.key = old.key) (hsettled : new.needsUpdate old = false) :
    new.toJson.compact = old.toJson.compact ↔ new.KeepsEntries old := by
  have hkind : new.kind = old.kind := congrArg Key.kind hkey
  have hname : new.name = old.name := congrArg Key.name hkey
  -- Objects of different kinds have different keys.
  cases hnew with
  | configMap hctx hnamespace bundle =>
    cases hold with
    | configMap hctx' hnamespace' bundle' =>
      exact settled_iff_of_eq (NodeContext.configMap_eq_of_settled hctx hctx'
        (hnamespace.trans hnamespace'.symm) hname hsettled)
    | _ => cases hkind
  | deployment hctx hnamespace bundle? =>
    cases hold with
    | deployment hctx' hnamespace' bundle'? =>
      exact NodeContext.deployment_settled_iff hctx hctx' (hnamespace.trans hnamespace'.symm) hname
        hsettled
    | _ => cases hkind
  | virtualMachine hctx hnamespace defaults bundle? =>
    cases hold with
    | virtualMachine hctx' hnamespace' defaults' bundle'? =>
      exact NodeContext.virtualMachine_settled_iff hctx hctx' (hnamespace.trans hnamespace'.symm)
        hname hsettled
    | _ => cases hkind
  | service hctx hnamespace =>
    cases hold with
    | service hctx' hnamespace' =>
      exact settled_iff_of_eq (NodeContext.service_eq_of_settled hctx hctx'
        (hnamespace.trans hnamespace'.symm) hname hsettled)
    | _ => cases hkind
  | linkPolicy topology node peers =>
    cases hold with
    | linkPolicy topology' node' peers' =>
      exact settled_iff_of_eq (linkPolicy_eq_of_settled hsettled)
    | managementPolicy topology' =>
      -- Two policies may well have one name, but not the same labels.
      exact absurd (Resource.label?_of_settled hsettled _)
        (label?_linkPolicy_ne_managementPolicy _ _ _ _ _ _)
    | _ => cases hkind
  | managementPolicy topology =>
    cases hold with
    | linkPolicy topology' node' peers' =>
      exact absurd (Resource.label?_of_settled hsettled _).symm
        (label?_linkPolicy_ne_managementPolicy _ _ _ _ _ _)
    | managementPolicy topology' =>
      exact settled_iff_of_eq (managementPolicy_eq_of_settled hsettled)
    | _ => cases hkind

end Requested

namespace Completeness

/-- **What is found of an edit**: if no drift is found between what two versions of a topology ask
for under one key, then it says the same exactly if no single entry of requests or limits was
dropped. -/
theorem same_iff_keepsEntries {t t' : Topology} {c c' : Classifier} {namespaceName : String}
    {new old : Resource} (hnew : t.AsksFor c namespaceName new)
    (hold : t'.AsksFor c' namespaceName old) (hkey : new.key = old.key)
    (hsettled : new.needsUpdate old = false) :
    new.toJson.compact = old.toJson.compact ↔ new.KeepsEntries old :=
  (Requested.of_asksFor hnew).settled_iff (Requested.of_asksFor hold) hkey hsettled

/-! A node no longer requests memory, but CPU still. -/

/-- The topology `lab` with a node whose container has the given requests. -/
def requestingNode (requests : StringMap) : Topology :=
  { oneNode with native := { oneNode.native with resources := some ⟨requests, ∅⟩ } }

/-- The Deployment before and after, which is not replaced. -/
theorem dropped_entry : ∃ new old,
    (requestingNode (.ofList [("cpu", "1")])).AsksFor .bare "lab" new ∧
      (requestingNode (.ofList [("cpu", "1"), ("memory", "1Gi")])).AsksFor .bare "lab" old ∧
      new.key = old.key ∧ new.needsUpdate old = false ∧
      new.toJson.compact ≠ old.toJson.compact := by
  have hcheck : (match (requestingNode (.ofList [("cpu", "1")])).render .bare "lab",
        (requestingNode (.ofList [("cpu", "1"), ("memory", "1Gi")])).render .bare "lab" with
      | .ok later, .ok earlier =>
        (NodePlan.allObjects (later.map fun _ node => node.plan)).any fun new =>
          (NodePlan.allObjects (earlier.map fun _ node => node.plan)).any fun old =>
            new.key = old.key && !new.object.needsUpdate old.object &&
              new.object.toJson.compact != old.object.toJson.compact
      | _, _ => false) = true := by decide +kernel
  cases hlater : (requestingNode (.ofList [("cpu", "1")])).render .bare "lab" with
  | error e => simp [hlater] at hcheck
  | ok later =>
    cases hearlier : (requestingNode (.ofList [("cpu", "1"), ("memory", "1Gi")])).render .bare
      "lab" with
    | error e => simp [hlater, hearlier] at hcheck
    | ok earlier =>
      simp only [hlater, hearlier, List.any_eq_true, Bool.and_eq_true, decide_eq_true_eq,
        Bool.not_eq_true', bne_iff_ne] at hcheck
      obtain ⟨new, hnew, old, hold, ⟨hkey, hsettled⟩, hne⟩ := hcheck
      exact ⟨new.object, old.object, Or.inl ⟨later, hlater, new, hnew, rfl⟩,
        Or.inl ⟨earlier, hearlier, old, hold, rfl⟩, hkey, hsettled, hne⟩

/-- The entry that was dropped is in the live object only, and the comparison does not find it. -/
theorem dropped_entry_stays : ∃ new old,
    (requestingNode (.ofList [("cpu", "1")])).AsksFor .bare "lab" new ∧
      (requestingNode (.ofList [("cpu", "1"), ("memory", "1Gi")])).AsksFor .bare "lab" old ∧
      new.key = old.key ∧ new.needsUpdate old = false ∧ ¬ new.KeepsEntries old := by
  obtain ⟨new, old, hnew, hold, hkey, hsettled, hne⟩ := dropped_entry
  exact ⟨new, old, hnew, hold, hkey, hsettled, fun hkeeps =>
    hne ((same_iff_keepsEntries hnew hold hkey hsettled).2 hkeeps)⟩

/-- **Not every edit is found.** -/
theorem not_every_edit_is_found : ¬ ∀ (t t' : Topology) (c c' : Classifier)
    (namespaceName : String) (new old : Resource), t.AsksFor c namespaceName new →
      t'.AsksFor c' namespaceName old → new.key = old.key → new.needsUpdate old = false →
        new.toJson.compact = old.toJson.compact := by
  intro hfound
  obtain ⟨new, old, hnew, hold, hkey, hsettled, hne⟩ := dropped_entry
  exact hne (hfound _ _ _ _ _ new old hnew hold hkey hsettled)

end Completeness

end NetLab
