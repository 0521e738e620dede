import Mathlib.Data.List.Induction
import NetLab.Proofs.Cluster.Histories
import NetLab.Proofs.Reconcile.Rules

/-!
# Passes over groups

A pass takes a snapshot, applies one group of planned objects after the other, and prunes
(`Pass.overGroups`).  The workload pass has a group for each node, the connectivity pass one for all
policies; what they do beyond that is to look at the result (`Reconciles`).  So what holds of a pass
over any groups holds of both.

What a pass knows at the end of its snapshot it has from its lists alone (`snapshotOf`), all of
which have succeeded by then (`Snapshot`).
-/

namespace NetLab

open Cluster Kube Program

/-- Where keys are distinct, an item has another key than those before it. -/
theorem ne_of_nodup_map {ι κ : Type} {keyOf : ι → κ} {before rest : List ι} {item earlier : ι}
    (h : ((before ++ item :: rest).map keyOf).Nodup) (hmem : earlier ∈ before) :
    keyOf earlier ≠ keyOf item := by
  rw [List.map_append, List.nodup_append] at h
  exact h.2.2 _ (List.mem_map_of_mem hmem) _ List.mem_cons_self

/-- The objects of one owner, and the workload type that changes of them state. -/
structure Group where
  owner : String
  type? : Option WorkloadType
  objects : List PlannedObject

namespace Group

def keys (group : Group) : List Key := group.objects.map PlannedObject.key

/-- The keys of some groups, in order. -/
def keysOf (groups : List Group) : List Key := groups.flatMap keys

/-- Why none of the objects of the group is applied: one is of a kind that the pass does not handle,
or their dependencies form a cycle. -/
def refusal? (scope : Scope) (group : Group) : Option ResourceError :=
  match group.objects.find? fun planned => !scope.kinds.contains planned.object.kind with
  | some planned => some (.unsupportedKind group.owner planned.object.kind)
  | none =>
    match PlannedObject.applyOrder? group.objects with
    | none => some (.dependencyCycle group.owner)
    | some _ => none

@[simp]
theorem keysOf_append (groups more : List Group) :
    keysOf (groups ++ more) = keysOf groups ++ keysOf more := List.flatMap_append

@[simp]
theorem keysOf_singleton (group : Group) : keysOf [group] = group.keys := List.flatMap_singleton ..

/-- The objects of some groups. -/
def objectsOf (groups : List Group) : List PlannedObject := groups.flatMap objects

theorem keysOf_eq (groups : List Group) :
    keysOf groups = (objectsOf groups).map PlannedObject.key := by
  rw [keysOf, objectsOf, List.map_flatMap]
  rfl

theorem mem_keysOf {groups : List Group} {group : Group} {planned : PlannedObject}
    (hgroup : group ∈ groups) (hplanned : planned ∈ group.objects) : planned.key ∈ keysOf groups :=
  List.mem_flatMap.2 ⟨group, hgroup, List.mem_map_of_mem hplanned⟩

/-- A group that comes next has keys of its own. -/
theorem not_mem_keys {groups : List Group} {group : Group} {key : Key}
    (hnodup : (keysOf (groups ++ [group])).Nodup) (hmem : key ∈ keysOf groups) :
    key ∉ group.keys := by
  rw [keysOf_append, keysOf_singleton, List.nodup_append] at hnodup
  exact fun hkey => hnodup.2.2 key hmem key hkey rfl

/-- A group of handled kinds that has an order is not refused. -/
theorem refusal?_eq_none {scope : Scope} {group : Group} {order : List PlannedObject}
    (hkinds : ∀ planned ∈ group.objects, planned.object.kind ∈ scope.kinds)
    (horder : PlannedObject.applyOrder? group.objects = some order) :
    group.refusal? scope = none := by
  have hhandled : (group.objects.find? fun planned =>
      !scope.kinds.contains planned.object.kind) = none :=
    List.find?_eq_none.2 fun planned hmem => by simpa using hkinds planned hmem
  rw [refusal?, hhandled, horder]

/-- A refusal is not about one object. -/
theorem key?_of_refusal {scope : Scope} {group : Group} {error : ResourceError}
    (h : group.refusal? scope = some error) : error.key? = none := by
  unfold refusal? at h
  split at h
  · obtain rfl := Option.some.inj h
    rfl
  · split at h
    · obtain rfl := Option.some.inj h
      rfl
    · cases h

/-- A group that is refused has objects. -/
theorem exists_mem_of_refusal {scope : Scope} {group : Group} {error : ResourceError}
    (h : group.refusal? scope = some error) : ∃ planned, planned ∈ group.objects := by
  refine List.exists_mem_of_ne_nil _ fun hempty => ?_
  simp [refusal?, hempty, PlannedObject.applyOrder?, PlannedObject.orderFrom?] at h

end Group

/-- The group of each node, in the order of their names. -/
def NodePlan.groups (plans : SortedMap String NodePlan) : List Group :=
  plans.entries.map fun entry => ⟨entry.1, some entry.2.workloadType, entry.2.objects⟩

/-- The list of a kind in a pass. -/
def Scope.list (scope : Scope) (kind : Kind) : Call :=
  .list kind (Labels.ownerSelector scope.topology)

/-! ## Snapshots -/

/-- The list has shown what there is of its kind.  Where machines are not served there are none. -/
def Cluster.Call.ShowsAll : (call : Call) → call.Answer → Prop
  | .list _ _, .ok _ => True
  | .list kind _, .error (.notFound _) => kind = .virtualMachine
  | .list _ _, .error _ | .get _, _ | .create _, _ | .replace _, _ | .delete _, _ => False

/-- **The lists of a pass that has its snapshot**: one of each kind, none of which has failed. -/
structure Snapshot (scope : Scope) (lists : History) : Prop where
  calls : lists.map Sigma.fst = scope.kinds.map scope.list
  complete : ∀ exchange ∈ lists, exchange.1.ShowsAll exchange.2

/-- **A pass that takes its snapshot** makes its next list, as none has failed so far. -/
def Listing (scope : Scope) (lists : History) (kind : Kind) : Prop :=
  (∃ rest : List Kind, lists.map Sigma.fst ++ scope.list kind :: rest.map scope.list =
    scope.kinds.map scope.list) ∧ ∀ exchange ∈ lists, exchange.1.ShowsAll exchange.2

/-- **A pass that has its snapshot** calls for one key after the other. -/
def AfterSnapshot (scope : Scope) (done : History) : Prop :=
  ∃ lists more, done = lists ++ more ∧ Snapshot scope lists ∧
    ∀ exchange ∈ more, ∃ key, exchange.1.key? = some key

theorem Snapshot.exists_list {scope : Scope} {lists : History} (h : Snapshot scope lists)
    {exchange : Exchange} (hmem : exchange ∈ lists) :
    ∃ kind ∈ scope.kinds, exchange.1 = scope.list kind := by
  have hcall : exchange.1 ∈ scope.kinds.map scope.list := h.calls ▸ List.mem_map_of_mem hmem
  obtain ⟨kind, hkind, hlist⟩ := List.mem_map.1 hcall
  exact ⟨kind, hkind, hlist.symm⟩

/-- The snapshot that a history makes. -/
def snapshotOf (topology : String) (done : History) : SortedMap Key Resource :=
  done.foldl (fun live exchange => Pass.addOwned topology live (exchange.1.listed exchange.2)) ∅

/-- A list has shown an object of the topology. -/
def Listed (topology : String) (done : History) (object : Resource) : Prop :=
  object.ownedBy topology = true ∧
    ∃ exchange ∈ done, object ∈ exchange.1.listed exchange.2

@[simp]
theorem snapshotOf_concat (topology : String) (done : History) (exchange : Exchange) :
    snapshotOf topology (done ++ [exchange]) =
      Pass.addOwned topology (snapshotOf topology done) (exchange.1.listed exchange.2) := by
  simp [snapshotOf]

/-- What is in a snapshot was listed. -/
theorem Listed.of_get? {topology : String} {done : History} {key : Key} {object : Resource}
    (h : (snapshotOf topology done).get? key = some object) :
    Listed topology done object ∧ object.key = key := by
  induction done using List.reverseRecOn with
  | nil => cases h
  | append_singleton done exchange ih =>
    rw [snapshotOf_concat] at h
    rcases Pass.get?_addOwned topology (snapshotOf topology done) (exchange.1.listed exchange.2) key
      with ⟨item, hmem, hown, hkey, hget⟩ | ⟨-, hget⟩
    · obtain rfl := Option.some.inj (hget.symm.trans h)
      exact ⟨⟨hown, exchange, List.mem_append_right _ List.mem_cons_self, hmem⟩, hkey⟩
    · obtain ⟨⟨hown, earlier, hearlier, hmem⟩, hkey⟩ := ih (hget ▸ h)
      exact ⟨⟨hown, earlier, List.mem_append_left _ hearlier, hmem⟩, hkey⟩

/-- For everything that was listed there is an object in the snapshot. -/
theorem Listed.exists_get? {topology : String} {done : History} {object : Resource}
    (h : Listed topology done object) :
    ∃ found, (snapshotOf topology done).get? object.key = some found := by
  obtain ⟨hown, exchange, hexchange, hmem⟩ := h
  induction done using List.reverseRecOn with
  | nil => cases hexchange
  | append_singleton done last ih =>
    rw [snapshotOf_concat]
    rcases Pass.get?_addOwned topology (snapshotOf topology done) (last.1.listed last.2) object.key
      with ⟨item, -, -, -, hget⟩ | ⟨hnone, hget⟩
    · exact ⟨item, hget⟩
    · rw [hget]
      rcases List.mem_append.1 hexchange with hearlier | hlast
      · exact ih hearlier
      · obtain rfl := List.mem_singleton.1 hlast
        exact absurd rfl (hnone object hmem hown)

/-- Only lists show objects of a snapshot. -/
theorem listed_append {topology : String} {lists more : History} {object : Resource}
    (hmore : ∀ exchange ∈ more, exchange.1.listed exchange.2 = []) :
    Listed topology (lists ++ more) object ↔ Listed topology lists object := by
  refine and_congr_right fun _ => ⟨?_, ?_⟩
  · rintro ⟨exchange, hexchange, hmem⟩
    rcases List.mem_append.1 hexchange with hlists | hlater
    · exact ⟨exchange, hlists, hmem⟩
    · rw [hmore exchange hlater] at hmem
      cases hmem
  · rintro ⟨exchange, hexchange, hmem⟩
    exact ⟨exchange, List.mem_append_left _ hexchange, hmem⟩

/-- If lists show only what they were asked for, what is listed is of a kind of the pass. -/
theorem Listed.kind_mem {scope : Scope} {topology : String} {lists : History} {object : Resource}
    (h : Listed topology lists object) (hsnapshot : Snapshot scope lists)
    (hkinds : ∀ exchange ∈ lists, exchange.1.OfKind exchange.2) : object.kind ∈ scope.kinds := by
  obtain ⟨-, ⟨call, answer⟩, hmem, hitem⟩ := h
  obtain ⟨kind, hkind, rfl : call = scope.list kind⟩ := hsnapshot.exists_list hmem
  have hofKind := hkinds _ hmem
  cases answer with
  | error e => cases hitem
  | ok items =>
    rw [show object.kind = kind from hofKind object hitem]
    exact hkind

/-- What is called for a key shows nothing of a snapshot. -/
theorem Cluster.Call.listed_eq_nil {exchange : Exchange} {key : Key}
    (h : exchange.1.key? = some key) : exchange.1.listed exchange.2 = [] := by
  obtain ⟨call, answer⟩ := exchange
  cases call with
  | list _ _ => cases h
  | get _ | create _ | replace _ | delete _ => rfl

/-- What is called for keys leaves the snapshot as it is. -/
theorem snapshotOf_append {topology : String} {done more : History}
    (hmore : ∀ exchange ∈ more, ∃ key, exchange.1.key? = some key) :
    snapshotOf topology (done ++ more) = snapshotOf topology done := by
  induction more using List.reverseRecOn with
  | nil => rw [List.append_nil]
  | append_singleton more last ih =>
    obtain ⟨hmore, hlast⟩ := List.forall_mem_append.1 hmore
    obtain ⟨key, hkey⟩ := hlast last List.mem_cons_self
    rw [← List.append_assoc, snapshotOf_concat, Cluster.Call.listed_eq_nil hkey, ← ih hmore]
    rfl

namespace Pass

/-- A pass that applies some groups. -/
def applyGroups (scope : Scope) (groups : List Group) (pass : Pass) : Program Pass :=
  forEach (fun group : Group => applyGroup scope group.type? group.owner group.objects) groups pass

/-- **A pass over some groups.** -/
def overGroups (scope : Scope) (groups : List Group) : Program (Except PassError Pass) :=
  begin scope fun pass => (applyGroups scope groups pass).bind (prune scope)

variable {scope : Scope} {allows : History → Call → Prop}

theorem applyGroup_of_refusal {group : Group} {error : ResourceError} (pass : Pass)
    (h : group.refusal? scope = some error) :
    applyGroup scope group.type? group.owner group.objects pass =
      .done ((pass.plan group.objects).fail error) := by
  unfold applyGroup
  split
  · rename_i planned hfind
    have hkind : group.refusal? scope =
        some (.unsupportedKind group.owner planned.object.kind) := by
      unfold Group.refusal?
      rw [hfind]
    obtain rfl := Option.some.inj (hkind.symm.trans h)
    rfl
  · rename_i hfind
    split
    · rename_i hcycle
      have hrefused : group.refusal? scope = some (.dependencyCycle group.owner) := by
        unfold Group.refusal?
        rw [hfind, hcycle]
      obtain rfl := Option.some.inj (hrefused.symm.trans h)
      rfl
    · rename_i order horder
      have hnone : group.refusal? scope = none := by
        unfold Group.refusal?
        rw [hfind, horder]
      cases hnone.symm.trans h

/-- A group that is not refused is applied in order. -/
theorem exists_order_of_refusal_none {group : Group} (h : group.refusal? scope = none) :
    ∃ order, PlannedObject.applyOrder? group.objects = some order ∧ ∀ pass : Pass,
      applyGroup scope group.type? group.owner group.objects pass =
        forEach (applyObject scope group.type?) order (pass.plan group.objects) := by
  unfold Group.refusal? at h
  split at h
  · cases h
  · rename_i hfind
    split at h
    · cases h
    · rename_i order horder
      refine ⟨order, horder, fun pass => ?_⟩
      unfold applyGroup
      dsimp only
      rw [hfind, horder]
      rfl

/-- **The snapshot of a pass**: what comes after it may rely on all its lists having succeeded. -/
theorem meets_begin_recording {α : Type} {next : Pass → Program α}
    {post : Except PassError α → History → Prop}
    (hallows : ∀ lists kind, Listing scope lists kind → allows lists (scope.list kind))
    (hfail : ∀ lists kind (e : ClusterError), Listing scope lists kind →
      post (.error (.list kind e)) (lists ++ [⟨scope.list kind, .error e⟩]))
    (hnext : ∀ lists, Snapshot scope lists →
      (next (start (snapshotOf scope.topology lists))).Meets (recording allows)
        (fun value done => post (.ok value) done) lists) :
    (begin scope next).Meets (recording allows) post [] := by
  -- The lists so far, and those that are left, are the lists of the pass.
  refine meets_begin (fun rest live lists =>
    lists.map Sigma.fst ++ rest.map scope.list = scope.kinds.map scope.list ∧
      (∀ exchange ∈ lists, exchange.1.ShowsAll exchange.2) ∧
        live = snapshotOf scope.topology lists) ?_ ?_ ?_ ?_ ?_ ?_
  · rintro kind rest _ lists ⟨hcalls, hcomplete, -⟩
    exact hallows lists kind ⟨⟨rest, hcalls⟩, hcomplete⟩
  · rintro kind rest _ lists items _ ⟨hcalls, hcomplete, rfl⟩ rfl
    refine ⟨by simpa [Scope.list] using hcalls, ?_, by rw [snapshotOf_concat]; rfl⟩
    exact List.forall_mem_append.2 ⟨hcomplete, List.forall_mem_singleton.2 trivial⟩
  · rintro rest _ lists message _ ⟨hcalls, hcomplete, rfl⟩ rfl
    refine ⟨by simpa [Scope.list] using hcalls, ?_, by rw [snapshotOf_concat]; rfl⟩
    exact List.forall_mem_append.2 ⟨hcomplete, List.forall_mem_singleton.2 rfl⟩
  · rintro kind rest _ lists e _ ⟨hcalls, hcomplete, -⟩ rfl
    exact hfail lists kind e ⟨⟨rest, hcalls⟩, hcomplete⟩
  · rintro _ lists ⟨hcalls, hcomplete, rfl⟩
    exact hnext lists ⟨by simpa using hcalls, hcomplete⟩
  · exact ⟨rfl, fun exchange hmem => (List.not_mem_nil hmem).elim, rfl⟩

/-- What a pass does to its value at the end can as well be done after it. -/
theorem begin_bind_done {α β : Type} (next : Pass → Program α) (f : α → β) :
    (begin scope fun pass => (next pass).bind fun value => .done (f value)) =
      (begin scope next).bind fun result => .done (result.map f) := by
  unfold begin
  rw [bind_assoc]
  refine congrArg _ (funext fun result => ?_)
  cases result with
  | error error => rfl
  | ok live =>
    dsimp only
    rw [bind_assoc, bind_assoc]
    rfl

end Pass

/-! ## The passes of a topology -/

/-- **The passes of a topology are passes over groups.** -/
inductive Reconciles : Scope → List Group → Program (Except PassError PassReport) → Prop where
  | workloads (topology namespaceName : String) (plans : SortedMap String NodePlan) :
      Reconciles (.workloads topology namespaceName) (NodePlan.groups plans)
        (reconcileWorkloads topology namespaceName plans)
  | policies (topology namespaceName : String) (policies : List PlannedObject) :
      Reconciles (.connectivity topology namespaceName) [⟨topology, none, policies⟩]
        (reconcilePolicies topology namespaceName policies)
  /-- A pass over any groups. -/
  | overGroups (scope : Scope) (groups : List Group) :
      Reconciles scope groups
        ((Pass.overGroups scope groups).bind fun result => .done (result.map Pass.report))

theorem reconcileWorkloads_eq (topology namespaceName : String)
    (plans : SortedMap String NodePlan) :
    reconcileWorkloads topology namespaceName plans =
      (Pass.overGroups (.workloads topology namespaceName) (NodePlan.groups plans)).bind
        fun result =>
          .done (result.map fun pass =>
            { pass.report with nodes := pass.nodeStatus plans }) := by
  unfold Pass.overGroups
  rw [← Pass.begin_bind_done]
  unfold reconcileWorkloads
  refine congrArg (Pass.begin _) (funext fun pass => ?_)
  rw [bind_assoc, Pass.applyGroups, NodePlan.groups, forEach_map]
  rfl

theorem reconcilePolicies_eq (topology namespaceName : String) (policies : List PlannedObject) :
    reconcilePolicies topology namespaceName policies =
      (Pass.overGroups (.connectivity topology namespaceName) [⟨topology, none, policies⟩]).bind
        fun result => .done (result.map Pass.report) := by
  unfold Pass.overGroups
  rw [← Pass.begin_bind_done]
  unfold reconcilePolicies
  refine congrArg (Pass.begin _) (funext fun pass => ?_)
  rw [bind_assoc]
  change _ = ((Pass.applyGroup _ none topology policies pass).bind Program.done).bind _
  rw [bind_done]
  rfl

namespace Reconciles

variable {scope : Scope} {groups : List Group} {program : Program (Except PassError PassReport)}

/-- Beyond the pass over the groups, only the nodes are looked at. -/
theorem exists_finish (h : Reconciles scope groups program) :
    ∃ finish : Pass → PassReport,
      (∀ pass, ∃ nodes, finish pass = { pass.report with nodes }) ∧
        program = (Pass.overGroups scope groups).bind fun result => .done (result.map finish) := by
  cases h with
  | workloads topology namespaceName plans =>
    exact ⟨_, fun pass => ⟨_, rfl⟩, reconcileWorkloads_eq topology namespaceName plans⟩
  | policies topology namespaceName policies =>
    exact ⟨_, fun pass => ⟨_, rfl⟩, reconcilePolicies_eq topology namespaceName policies⟩
  | overGroups => exact ⟨_, fun pass => ⟨_, rfl⟩, rfl⟩

/-- A report is the report of a pass over the groups, with what was seen of the nodes. -/
theorem exists_pass (h : Reconciles scope groups program) {done : History} {report : PassReport}
    (hyields : program.Yields done (.ok report)) :
    ∃ pass nodes, (Pass.overGroups scope groups).Yields done (.ok pass) ∧
      report = { pass.report with nodes } := by
  obtain ⟨finish, hfinish, rfl⟩ := h.exists_finish
  obtain ⟨result, hresult, hreport⟩ := hyields.of_bind_done
  cases result with
  | error error => cases hreport
  | ok pass =>
    obtain ⟨nodes, hnodes⟩ := hfinish pass
    exact ⟨pass, nodes, hresult, (Except.ok.inj hreport).symm.trans hnodes⟩

/-- What is to be seen to in a pass over the groups. -/
theorem meets (h : Reconciles scope groups program) {σ : Type} {contract : Contract σ}
    {post : Except PassError Pass → σ → Prop} {post' : Except PassError PassReport → σ → Prop}
    {s : σ} (hover : (Pass.overGroups scope groups).Meets contract post s)
    (hok : ∀ pass nodes t, post (.ok pass) t → post' (.ok { pass.report with nodes }) t)
    (herror : ∀ error t, post (.error error) t → post' (.error error) t) :
    program.Meets contract post' s := by
  obtain ⟨finish, hfinish, rfl⟩ := h.exists_finish
  refine meets_bind.2 (hover.mono fun result t hpost => ?_)
  cases result with
  | error error => exact herror error t hpost
  | ok pass =>
    obtain ⟨nodes, hnodes⟩ := hfinish pass
    have hreport := hok pass nodes t hpost
    rwa [← hnodes] at hreport

end Reconciles

end NetLab
