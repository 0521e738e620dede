import NetLab.Proofs.Policy.Links
import NetLab.Proofs.Reconcile.Refusals
import NetLab.Proofs.Reconcile.SecondPass
import NetLab.Proofs.Render.Keys

/-!
# The keys of policies

The name of a node's policy is its workload name with one more part, and rendering sees to it that
workload names differ.  In a name that is too long that part is cut off.  Then the policy is named
like the workload, and another policy may have that name: the policy of another node, of which only
a piece of that part is left, or the policy for management.  This is the only way in which two
policies come to share a key (`policyKeys_nodup_iff`), and it can happen (`policyKeys_not_distinct`).
Where it does, each of the two policies overwrites the other in every pass (`connectivity_settles`).
-/

namespace NetLab

open Cluster Kube

namespace Topology

variable {t : Topology} {c : Classifier} {namespaceName : String}

/-- The name of the policy of a node. -/
def linkPolicyName (t : Topology) (node : String) : String :=
  DnsLabel.ofParts [t.name, node, "links"]

/-- The name of the policy for management. -/
def managementPolicyName (t : Topology) : String := DnsLabel.ofParts [t.name, "management"]

/-! ## Names -/

theorem linkPolicyName_eq (t : Topology) (node : String) : t.linkPolicyName node =
    String.ofList (DnsLabel.cut (DnsLabel.stem (t.name ++ "-" ++ node) ++
      '-' :: DnsLabel.dashed (Text.lower "links").toList)) := by
  rw [← DnsLabel.stem_append]
  rfl

theorem managementPolicyName_eq (t : Topology) : t.managementPolicyName =
    String.ofList (DnsLabel.cut (DnsLabel.stem t.name ++
      '-' :: DnsLabel.dashed (Text.lower "management").toList)) := by
  rw [← DnsLabel.stem_append]
  rfl

/-- **Two policies of nodes with one name**: one of them is named like its workload, because nothing
of its own last part is left. -/
theorem linkPolicyName_eq_workloadName {a b : String} (h : t.linkPolicyName a = t.linkPolicyName b)
    (hdiffer : t.workloadName a ≠ t.workloadName b) :
    t.linkPolicyName a = t.workloadName a ∨ t.linkPolicyName b = t.workloadName b := by
  simp only [linkPolicyName_eq, workloadName_eq, ne_eq, String.ofList_inj] at h hdiffer ⊢
  exact DnsLabel.lost_suffix (by decide) (by decide) h hdiffer

/-- **A policy named like the one for management** is named like its workload too. -/
theorem linkPolicyName_eq_of_management {node : String}
    (h : t.linkPolicyName node = t.managementPolicyName) :
    t.linkPolicyName node = t.workloadName node := by
  simp only [linkPolicyName_eq, managementPolicyName_eq, workloadName_eq, String.ofList_inj] at h ⊢
  refine DnsLabel.lost_suffix_of_length_lt (by decide) (by decide) (by decide) (by decide) ?_ h
  rw [DnsLabel.stem_append, List.length_append]
  exact Nat.lt_add_of_pos_right (Nat.succ_pos _)

/-- No two declared nodes of a topology that renders have one workload name. -/
theorem workloadName_inj_of_render {rendered : SortedMap String RenderedNode}
    (h : t.render c namespaceName = .ok rendered) {a b : String}
    (ha : t.nodes.contains a = true) (hb : t.nodes.contains b = true)
    (hname : t.workloadName a = t.workloadName b) : a = b := by
  rw [← contains_render h] at ha hb
  obtain ⟨first, hfirst⟩ := Option.isSome_iff_exists.1 ha
  obtain ⟨second, hsecond⟩ := Option.isSome_iff_exists.1 hb
  have hentry : (a, first) = (b, second) := workloadName_inj h (SortedMap.get?_eq_some_iff.1 hfirst)
    (SortedMap.get?_eq_some_iff.1 hsecond) hname
  exact congrArg Prod.fst hentry

/-! ## Keys -/

/-- The keys of the policies, in some order. -/
theorem keys_policies_perm (t : Topology) (namespaceName : String) :
    ((t.policies namespaceName).map PlannedObject.key).Perm
      ((t.nodes.keys.map fun node => ⟨.networkPolicy, t.linkPolicyName node⟩) ++
        [⟨.networkPolicy, t.managementPolicyName⟩]) := by
  have hkeys : ((t.policyList namespaceName).map PlannedObject.free).map PlannedObject.key =
      (t.nodes.keys.map fun node => ⟨.networkPolicy, t.linkPolicyName node⟩) ++
        [⟨.networkPolicy, t.managementPolicyName⟩] := by
    simp only [policyList, List.map_append, List.map_map, List.map_cons, List.map_nil]
    rfl
  rw [← hkeys]
  exact (List.mergeSort_perm _ _).map _

/-- The policies have keys of their own if their names differ. -/
theorem policyKeys_nodup_iff_names :
    ((t.policies namespaceName).map PlannedObject.key).Nodup ↔
      (∀ a, t.nodes.contains a = true → ∀ b, t.nodes.contains b = true →
        t.linkPolicyName a = t.linkPolicyName b → a = b) ∧
      ∀ a, t.nodes.contains a = true → t.linkPolicyName a ≠ t.managementPolicyName := by
  rw [(keys_policies_perm t namespaceName).nodup_iff, List.nodup_append]
  simp only [List.nodup_map_iff_inj_on t.nodes.nodup_keys, SortedMap.mem_keys_iff, List.mem_map,
    List.mem_singleton, Key.mk.injEq, true_and, List.nodup_singleton]
  constructor
  · rintro ⟨hinjective, hmanagement⟩
    exact ⟨hinjective, fun a ha heq => hmanagement _ ⟨a, ha, rfl⟩ _ rfl (by rw [heq])⟩
  · rintro ⟨hinjective, hmanagement⟩
    refine ⟨hinjective, ?_⟩
    rintro _ ⟨a, ha, rfl⟩ _ rfl heq
    exact hmanagement a ha (Key.mk.inj heq).2

/-- **When the policies have keys of their own.**  Of a topology that renders, two policies share a
key exactly if a policy that is named like its own workload, for want of room for more, is also
named like the policy of another node, or like the one for management. -/
theorem policyKeys_nodup_iff {rendered : SortedMap String RenderedNode}
    (h : t.render c namespaceName = .ok rendered) :
    ((t.policies namespaceName).map PlannedObject.key).Nodup ↔
      ∀ a, t.nodes.contains a = true → t.linkPolicyName a = t.workloadName a →
        t.managementPolicyName ≠ t.workloadName a ∧
        ∀ b, t.nodes.contains b = true → a ≠ b → t.linkPolicyName b ≠ t.workloadName a := by
  rw [policyKeys_nodup_iff_names]
  constructor
  · rintro ⟨hinjective, hmanagement⟩ a ha hcut
    refine ⟨fun heq => hmanagement a ha (hcut.trans heq.symm), fun b hb hne heq => ?_⟩
    exact hne (hinjective a ha b hb (hcut.trans heq.symm))
  · intro hnone
    refine ⟨fun a ha b hb heq => ?_, fun a ha heq => ?_⟩
    · by_contra hne
      have hdiffer : t.workloadName a ≠ t.workloadName b := fun hsame =>
        hne (workloadName_inj_of_render h ha hb hsame)
      rcases linkPolicyName_eq_workloadName heq hdiffer with hcut | hcut
      · exact (hnone a ha hcut).2 b hb hne (heq.symm.trans hcut)
      · exact (hnone b hb hcut).2 a ha (Ne.symm hne) (heq.trans hcut)
    · have hcut := linkPolicyName_eq_of_management heq
      exact (hnone a ha hcut).1 (heq.symm.trans hcut)

/-! ## Passes -/

/-- The group of the connectivity pass. -/
def policyGroups (t : Topology) (namespaceName : String) : List Group :=
  [⟨t.name, none, t.policies namespaceName⟩]

theorem objectsOf_policyGroups (t : Topology) (namespaceName : String) :
    Group.objectsOf (t.policyGroups namespaceName) = t.policies namespaceName := by
  simp [Group.objectsOf, policyGroups]

theorem keysOf_policyGroups (t : Topology) (namespaceName : String) :
    Group.keysOf (t.policyGroups namespaceName) =
      (t.policies namespaceName).map PlannedObject.key := by
  rw [Group.keysOf_eq, objectsOf_policyGroups]

/-- Every policy is planned without dependencies. -/
theorem mem_policies_iff {planned : PlannedObject} :
    planned ∈ t.policies namespaceName ↔
      ∃ policy ∈ t.policyList namespaceName, planned = .free policy := by
  simp [policies, eq_comm]

/-- What a policy is: that of a declared node or the one for management. -/
theorem policy_cases {policy : Resource} (h : policy ∈ t.policyList namespaceName) :
    (∃ node, t.nodes.contains node = true ∧
      policy = linkPolicy t.name node (t.linkedPeers node) namespaceName) ∨
      policy = managementPolicy t.name namespaceName := by
  simpa [policyList, SortedMap.mem_keys_iff, @eq_comm _ policy] using h

/-- The policies of a topology can be carried out. -/
theorem fit_policies (t : Topology) (namespaceName : String) :
    Group.Fit (.connectivity t.name namespaceName) (t.policyGroups namespaceName) := by
  have hpolicy : ∀ planned ∈ t.policies namespaceName,
      planned.object.kind = .networkPolicy ∧ planned.object.ownedBy t.name = true ∧
        planned.dependencies = [] := by
    intro planned hmem
    obtain ⟨policy, hpolicy, rfl⟩ := mem_policies_iff.1 hmem
    have htopology : Labels.topology ≠ Labels.policyType := by decide
    have hnode : Labels.topology ≠ Labels.node := by decide
    rcases policy_cases hpolicy with ⟨node, -, rfl⟩ | rfl
    · refine ⟨rfl, ?_, rfl⟩
      simp [Resource.ownedBy, PlannedObject.free, label?_linkPolicy, Labels.identity, htopology,
        hnode]
    · refine ⟨rfl, ?_, rfl⟩
      simp [Resource.ownedBy, PlannedObject.free, label?_managementPolicy, htopology]
  have horder : PlannedObject.InOrder ((t.policies namespaceName).map PlannedObject.key) []
      (t.policies namespaceName) :=
    PlannedObject.inOrder_of_free fun planned hmem => (hpolicy planned hmem).2.2
  constructor
  case accepted =>
    intro group hgroup
    obtain rfl := List.mem_singleton.1 hgroup
    refine Group.refusal?_eq_none (fun planned hmem => ?_)
      (PlannedObject.applyOrder?_eq_self horder)
    exact List.mem_singleton.2 (hpolicy planned hmem).1
  case closed =>
    intro group hgroup planned hmem
    obtain rfl := List.mem_singleton.1 hgroup
    simp [(hpolicy planned hmem).2.2]
  all_goals
    rw [objectsOf_policyGroups]
    intro planned hmem
    obtain ⟨hkind, hown, -⟩ := hpolicy planned hmem
  case kinds => exact List.mem_singleton.2 hkind
  case owned => exact hown

/-- Two policies are never satisfied by one object. -/
theorem needsUpdate_of_ne {policy policy' live : Resource}
    (hmem : policy ∈ t.policyList namespaceName) (hmem' : policy' ∈ t.policyList namespaceName)
    (hne : policy ≠ policy') (hsettled : policy.needsUpdate live = false) :
    policy'.needsUpdate live = true := by
  by_contra hsettled'
  rw [Bool.not_eq_true] at hsettled'
  have hlabel (name : String) : policy.label? name = policy'.label? name :=
    (Resource.label?_of_settled hsettled name).trans
      (Resource.label?_of_settled hsettled' name).symm
  rcases policy_cases hmem with ⟨node, -, rfl⟩ | rfl <;>
    rcases policy_cases hmem' with ⟨node', -, rfl⟩ | rfl
  · have hpolicyType : Labels.node ≠ Labels.policyType := by decide
    have hnode : node = node' := by
      simpa [label?_linkPolicy, Labels.identity, hpolicyType] using hlabel Labels.node
    exact hne (by rw [hnode])
  · exact label?_linkPolicy_ne_managementPolicy _ _ _ _ _ _ (hlabel _)
  · exact label?_linkPolicy_ne_managementPolicy _ _ _ _ _ _ (hlabel _).symm
  · exact hne rfl

/-- Policies that share a key are different ones, since no policy is planned twice. -/
theorem exists_clash (h : ¬ ((t.policies namespaceName).map PlannedObject.key).Nodup) :
    ∃ p ∈ t.policies namespaceName, ∃ q ∈ t.policies namespaceName, p.key = q.key ∧
      ∀ live, p.object.needsUpdate live = false → q.object.needsUpdate live = true := by
  have hmem {policy : Resource} (hpolicy : policy ∈ t.policyList namespaceName) :
      .free policy ∈ t.policies namespaceName := mem_policies_iff.2 ⟨policy, hpolicy, rfl⟩
  have hlink {node : String} (hnode : t.nodes.contains node = true) :
      linkPolicy t.name node (t.linkedPeers node) namespaceName ∈ t.policyList namespaceName :=
    List.mem_append_left _ (List.mem_map.2 ⟨node, SortedMap.mem_keys_iff.2 hnode, rfl⟩)
  have hmanagement : managementPolicy t.name namespaceName ∈ t.policyList namespaceName :=
    List.mem_append_right _ List.mem_cons_self
  rw [policyKeys_nodup_iff_names, not_and_or] at h
  push Not at h
  rcases h with ⟨a, ha, b, hb, hname, hne⟩ | ⟨a, ha, hname⟩
  · refine ⟨_, hmem (hlink ha), _, hmem (hlink hb), congrArg (Key.mk .networkPolicy) hname,
      fun live => needsUpdate_of_ne (hlink ha) (hlink hb) fun heq => hne ?_⟩
    have hpolicyType : Labels.node ≠ Labels.policyType := by decide
    have hlabel := congrArg (fun policy : Resource => policy.label? Labels.node) heq
    simpa [PlannedObject.free, label?_linkPolicy, Labels.identity, hpolicyType] using hlabel
  · refine ⟨_, hmem (hlink ha), _, hmem hmanagement, congrArg (Key.mk .networkPolicy) hname,
      fun live => needsUpdate_of_ne (hlink ha) hmanagement fun heq => ?_⟩
    exact label?_linkPolicy_ne_managementPolicy _ _ _ _ _ _
      (congrArg (fun policy : Resource => policy.label? Labels.policyType) heq)

/-- **When the policies of a topology settle.**  If a topology renders, its policies have keys of
their own unless one is named like its own workload, for want of room for more, and another policy
is named like that.  If they have keys of their own, the connectivity pass after a clean one finds
nothing to do.  If they do not, then no connectivity pass is ever quiet. -/
theorem connectivity_settles {rendered : SortedMap String RenderedNode}
    (h : t.render c namespaceName = .ok rendered) :
    (((t.policies namespaceName).map PlannedObject.key).Nodup ↔
      ∀ a, t.nodes.contains a = true → t.linkPolicyName a = t.workloadName a →
        t.managementPolicyName ≠ t.workloadName a ∧
        ∀ b, t.nodes.contains b = true → a ≠ b → t.linkPolicyName b ≠ t.workloadName a) ∧
    (((t.policies namespaceName).map PlannedObject.key).Nodup →
      ∀ (server : Server) (s : Store), server.Faithful t.name →
        ∀ events report u, (reconcileConnectivity t namespaceName).Reaches server.Answers s events
            (.done (.ok report)) u → report.isClean = true →
          ∀ events result v, (reconcileConnectivity t namespaceName).Reaches server.Answers u events
              (.done result) v →
            v = u ∧ (∀ event ∈ events, event.call.isWrite = false) ∧
              ∀ report, result = .ok report → report.changeCount = 0 ∧ report.errors = []) ∧
    (¬ ((t.policies namespaceName).map PlannedObject.key).Nodup →
      ∀ done report, (reconcileConnectivity t namespaceName).Yields done (.ok report) →
        (∃ exchange ∈ done, exchange.1.isWrite = true) ∨ report.errors ≠ []) := by
  have hreconciles : Reconciles (.connectivity t.name namespaceName)
      (t.policyGroups namespaceName) (reconcileConnectivity t namespaceName) := .policies ..
  refine ⟨policyKeys_nodup_iff h, fun hdistinct server s hserver => ?_, fun hshared => ?_⟩
  · intro events report u hreach hclean
    exact hreconciles.second_pass hserver (t.fit_policies namespaceName)
      (keysOf_policyGroups t namespaceName ▸ hdistinct) hreach hclean
  · intro done report hyields
    obtain ⟨p, hp, q, hq, hkey, hclash⟩ := exists_clash hshared
    rw [← objectsOf_policyGroups] at hp hq
    exact hreconciles.not_quiet hp hq hkey hclash hyields

/-! Two nodes, of which one is named like what is left of the policy of the other. -/

/-- With a dash and the name of its first node, the name of this topology makes 60 characters. -/
def longLinks : Topology :=
  ((Topology.ofName (String.ofList (List.replicate 57 'a'))).withNode "r1"
    (.ofImage "router" "frr")).withNode "r1-li" (.ofImage "router" "frr")

theorem longLinks_renders : longLinks.check = .ok () ∧
    ∃ rendered, longLinks.render .bare "sim" = .ok rendered := by
  refine ⟨by decide +kernel, ?_⟩
  obtain ⟨rendered, hrender, -⟩ := @exists_ok_of_any _ _ (longLinks.render .bare "sim")
    (fun _ => true) (by decide +kernel)
  exact ⟨rendered, hrender⟩

theorem longLinks_names : longLinks.linkPolicyName "r1-li" = longLinks.workloadName "r1-li" ∧
    longLinks.linkPolicyName "r1" = longLinks.workloadName "r1-li" := by
  have hname : longLinks.name = String.ofList (List.replicate 57 'a') := rfl
  simp only [linkPolicyName_eq, workloadName_eq, hname, DnsLabel.stem_eq, String.toList_append,
    String.toList_ofList, String.ofList_inj]
  decide +kernel

theorem longLinks_never_quiet : ∃ rendered,
    longLinks.render .bare "sim" = .ok rendered ∧
      ∀ done report, (reconcileConnectivity longLinks "sim").Yields done (.ok report) →
        (∃ exchange ∈ done, exchange.1.isWrite = true) ∨ report.errors ≠ [] := by
  obtain ⟨-, rendered, hrender⟩ := longLinks_renders
  obtain ⟨hcut, hsame⟩ := longLinks_names
  obtain ⟨hkeys, -, hloud⟩ := connectivity_settles hrender
  refine ⟨rendered, hrender, hloud fun hdistinct => ?_⟩
  exact (hkeys.1 hdistinct "r1-li" (by decide) hcut).2 "r1" (by decide) (by decide) hsame

/-- **Two policies of a topology that is valid and renders can have one key.** -/
theorem policyKeys_not_distinct : ¬ ∀ (t : Topology) (c : Classifier) (namespaceName : String)
    (rendered : SortedMap String RenderedNode), t.check = .ok () →
      t.render c namespaceName = .ok rendered →
        ((t.policies namespaceName).map PlannedObject.key).Nodup := by
  intro hdistinct
  obtain ⟨hcheck, rendered, hrender⟩ := longLinks_renders
  obtain ⟨hcut, hsame⟩ := longLinks_names
  have hnames := policyKeys_nodup_iff_names.1 (hdistinct _ _ _ _ hcheck hrender)
  exact absurd (hnames.1 "r1" (by decide) "r1-li" (by decide) (hsame.trans hcut.symm)) (by decide)

end Topology

end NetLab
