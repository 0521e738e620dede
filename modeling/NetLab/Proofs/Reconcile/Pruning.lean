import NetLab.Proofs.Cluster.Plain
import NetLab.Proofs.Reconcile.Groups
import NetLab.Proofs.Reconcile.Phases

/-!
# What is pruned

Every group is planned before anything else is done about it, also one that is refused as a whole or
that fails call by call.  A pass takes an object to be live because it was listed, or because it has
written or adopted it, and what it writes or adopts is planned by then.  So the live objects that
nobody planned, which are those that are pruned, are the listed objects of the topology whose key is
in none of the groups (`Applying.mem_unwanted_iff`): exactly these are deleted, each once, in
descending order of keys, after everything else (`prunes_exactly`).
-/

namespace NetLab.Pruning

open Cluster Kube Program

variable {scope : Scope} {type? : Option WorkloadType} {groups : List Group} {pass : Pass}
  {lists done : History} {keys : List Key} {key : Key}

/-- **When a pass over some groups may call what.**  Once it has its snapshot, it calls for planned
keys until it deletes; and it deletes what was listed and nobody planned, if nothing has been done
about it yet. -/
def allows (scope : Scope) (groups : List Group) (done : History) : Call → Prop
  | .list kind selector =>
    selector = Labels.ownerSelector scope.topology ∧ Listing scope done kind
  | .get key => AfterSnapshot scope done ∧ key ∈ Group.keysOf groups
  | .create object | .replace object => AfterSnapshot scope done ∧
      object.key ∈ Group.keysOf groups ∧ object.kind ∈ scope.kinds ∧
        ∀ exchange ∈ done, exchange.1.deletes = false
  | .delete key => AfterSnapshot scope done ∧ key ∉ Group.keysOf groups ∧
      (∃ object, Listed scope.topology done object ∧ object.key = key) ∧
        ∀ exchange ∈ done, exchange.1.key? ≠ some key

/-- What was called for the objects of the groups. -/
def Applied (groups : List Group) (applied : History) : Prop :=
  ∀ exchange ∈ applied, exchange.1.deletes = false ∧
    ∃ key ∈ Group.keysOf groups, exchange.1.key? = some key

/-- **Up to its prune** a pass takes to be live what was listed, except for what is planned. -/
structure Applying (scope : Scope) (groups : List Group) (lists : History) (keys : List Key)
    (pass : Pass) (done : History) : Prop where
  calls : ∃ applied, done = lists ++ applied ∧ Applied groups applied
  planned : pass.planned = keys
  live : ∀ key, key ∉ keys →
    pass.live.get? key = (snapshotOf scope.topology lists).get? key

namespace Applying

theorem congr {pass' : Pass} (h : Applying scope groups lists keys pass done)
    (hlive : pass'.live = pass.live) (hplanned : pass'.planned = pass.planned) :
    Applying scope groups lists keys pass' done := by
  refine ⟨h.calls, hplanned.trans h.planned, fun key hkey => ?_⟩
  rw [hlive, h.live key hkey]

theorem called (h : Applying scope groups lists keys pass done) (call : Call)
    (hkey : call.key? = some key) (hplanned : key ∈ Group.keysOf groups)
    (hkeeps : call.deletes = false) (answer : call.Answer) :
    Applying scope groups lists keys pass (done ++ [⟨call, answer⟩]) := by
  obtain ⟨applied, rfl, happlied⟩ := h.calls
  refine ⟨⟨applied ++ [⟨call, answer⟩], List.append_assoc _ _ _, ?_⟩, h.planned, h.live⟩
  exact List.forall_mem_append.2
    ⟨happlied, List.forall_mem_singleton.2 ⟨hkeeps, key, hplanned, hkey⟩⟩

theorem observe (h : Applying scope groups lists keys pass done) (hkey : key ∈ keys)
    (object : Resource) : Applying scope groups lists keys (pass.observe key object) done := by
  refine ⟨h.calls, h.planned, fun other hother => ?_⟩
  have hne : other ≠ key := fun heq => hother (heq ▸ hkey)
  rw [Pass.observe_live, SortedMap.get?_insert_of_ne hne, h.live other hother]

/-- The keys of one more group are planned. -/
theorem plan (h : Applying scope groups lists keys pass done) (objects : List PlannedObject) :
    Applying scope groups lists (keys ++ objects.map PlannedObject.key) (pass.plan objects)
      done := by
  refine ⟨h.calls, congrArg (· ++ _) h.planned, fun other hother => ?_⟩
  exact h.live other fun hmem => hother (List.mem_append_left _ hmem)

theorem afterSnapshot (h : Applying scope groups lists keys pass done)
    (hsnapshot : Snapshot scope lists) : AfterSnapshot scope done := by
  obtain ⟨applied, hdone, happlied⟩ := h.calls
  refine ⟨lists, applied, hdone, hsnapshot, fun exchange hmem => ?_⟩
  obtain ⟨-, key, -, hkey⟩ := happlied exchange hmem
  exact ⟨key, hkey⟩

/-- Nothing has been deleted yet. -/
theorem deletes_eq_false (h : Applying scope groups lists keys pass done)
    (hsnapshot : Snapshot scope lists) : ∀ exchange ∈ done, exchange.1.deletes = false := by
  obtain ⟨applied, rfl, happlied⟩ := h.calls
  refine List.forall_mem_append.2 ⟨fun exchange hmem => ?_, fun exchange hmem =>
    (happlied exchange hmem).1⟩
  obtain ⟨kind, -, hlist⟩ := hsnapshot.exists_list hmem
  rw [hlist]
  rfl

/-- Nothing has been called for a key that is in none of the groups. -/
theorem key?_ne (h : Applying scope groups lists keys pass done) (hsnapshot : Snapshot scope lists)
    (hkey : key ∉ Group.keysOf groups) : ∀ exchange ∈ done, exchange.1.key? ≠ some key := by
  obtain ⟨applied, rfl, happlied⟩ := h.calls
  refine List.forall_mem_append.2 ⟨fun exchange hmem => ?_, fun exchange hmem => ?_⟩
  · obtain ⟨kind, -, hlist⟩ := hsnapshot.exists_list hmem
    rw [hlist]
    exact nofun
  · obtain ⟨-, other, hother, hcalled⟩ := happlied exchange hmem
    rw [hcalled]
    rintro heq
    exact hkey (Option.some.inj heq ▸ hother)

/-- **What will be pruned** is what was listed and is not planned. -/
theorem mem_unwanted_iff (h : Applying scope groups lists keys pass done) :
    key ∈ pass.unwanted.map Prod.fst ↔
      (∃ object, Listed scope.topology lists object ∧ object.key = key) ∧ key ∉ keys := by
  constructor
  · intro hmem
    obtain ⟨⟨_, object⟩, hentry, rfl⟩ := List.mem_map.1 hmem
    obtain ⟨hlive, hunplanned⟩ := Pass.mem_unwanted.1 hentry
    rw [h.planned] at hunplanned
    rw [h.live _ hunplanned] at hlive
    exact ⟨⟨object, Listed.of_get? hlive⟩, hunplanned⟩
  · rintro ⟨⟨object, hlisted, rfl⟩, hunplanned⟩
    obtain ⟨found, hfound⟩ := hlisted.exists_get?
    refine List.mem_map.2 ⟨(object.key, found), Pass.mem_unwanted.2 ⟨?_, ?_⟩, rfl⟩
    · rw [h.live _ hunplanned, hfound]
    · rwa [h.planned]

end Applying

theorem meets_applyObject {p : PlannedObject} (hsnapshot : Snapshot scope lists)
    (hp : p.key ∈ keys) (hgroups : p.key ∈ Group.keysOf groups)
    (hkind : p.object.kind ∈ scope.kinds) (h : Applying scope groups lists keys pass done) :
    (Pass.applyObject scope type? p pass).Meets (recording (allows scope groups))
      (Applying scope groups lists keys) done := by
  refine Pass.meets_applyObject (fun _ _ _ => h.congr rfl rfl) (fun _ _ => ?_)
    (fun live _ _ _ => ?_) fun _ _ _ _ => h.congr rfl rfl
  · have hcreate := h.called (.create p.object) rfl hgroups rfl
    refine Pass.meets_create
      ⟨h.afterSnapshot hsnapshot, hgroups, hkind, h.deletes_eq_false hsnapshot⟩ ?_ ?_ ?_
    · rintro created _ rfl
      exact ((hcreate (.ok created)).observe hp created).congr rfl rfl
    · rintro message _ rfl
      have hget := (hcreate (.error (.alreadyExists message))).called (.get p.key) rfl hgroups rfl
      refine Pass.meets_adopt
        ⟨(hcreate (.error (.alreadyExists message))).afterSnapshot hsnapshot, hgroups⟩ ?_ ?_ ?_
      · rintro existing _ rfl -
        exact ((hget (.ok existing)).observe hp existing).congr rfl rfl
      · rintro existing _ rfl -
        exact (hget (.ok existing)).congr rfl rfl
      · rintro e _ rfl
        exact (hget (.error e)).congr rfl rfl
    · rintro e _ rfl
      exact (hcreate (.error e)).congr rfl rfl
  · have hkey : (p.object.update live).key = p.key := Resource.update_key p.object live
    have hsame : (p.object.update live).kind = p.object.kind := congrArg Key.kind hkey
    have hreplace := h.called (.replace (p.object.update live)) (congrArg some hkey) hgroups rfl
    refine Pass.meets_replace
      ⟨h.afterSnapshot hsnapshot, hkey ▸ hgroups, hsame ▸ hkind,
        h.deletes_eq_false hsnapshot⟩ ?_ ?_ ?_
    · rintro replaced _ rfl
      exact ((hreplace (.ok replaced)).observe hp replaced).congr rfl rfl
    · rintro message _ rfl
      exact (hreplace (.error (.conflict message))).congr rfl rfl
    · rintro e _ rfl
      exact (hreplace (.error e)).congr rfl rfl

theorem meets_applyGroup {group : Group} (hsnapshot : Snapshot scope lists)
    (hgroup : group ∈ groups) (h : Applying scope groups lists keys pass done) :
    (Pass.applyGroup scope group.type? group.owner group.objects pass).Meets
      (recording (allows scope groups)) (Applying scope groups lists (keys ++ group.keys))
        done := by
  have hplan := h.plan group.objects
  refine Pass.meets_applyGroup (fun _ _ _ => hplan.congr rfl rfl)
    (fun _ => hplan.congr rfl rfl) fun order hkinds horder => ?_
  refine meets_forEach_mem (Applying scope groups lists (keys ++ group.keys)) ?_ hplan
  intro p hp pass done happlying
  have hmem : p ∈ group.objects := (PlannedObject.perm_of_applyOrder? horder).mem_iff.1 hp
  exact meets_applyObject hsnapshot (List.mem_append_right _ (List.mem_map_of_mem hmem))
    (Group.mem_keysOf hgroup hmem) (hkinds p hmem) happlying

theorem meets_applyGroups (hsnapshot : Snapshot scope lists)
    (h : Applying scope groups lists [] pass done) :
    (Pass.applyGroups scope groups pass).Meets (recording (allows scope groups))
      (Applying scope groups lists (Group.keysOf groups)) done := by
  refine meets_forEach_before (fun before => Applying scope groups lists (Group.keysOf before))
    (fun before group rest pass done hsplit happlying => ?_) h
  rw [Group.keysOf_append, Group.keysOf_singleton]
  exact meets_applyGroup hsnapshot (hsplit ▸ List.mem_append_right _ List.mem_cons_self) happlying

/-! ## Deleting -/

/-- **What a pass deletes.**  It lists its kinds, applies the groups, and then deletes some keys. -/
structure Prunes (scope : Scope) (groups : List Group) (lists applied pruned : History)
    (keys : List Key) : Prop where
  snapshot : Snapshot scope lists
  applied : Applied groups applied
  deletes : pruned.map Sigma.fst = keys.map Call.delete
  /-- What is deleted was listed as the topology's own and is not planned, and all that was. -/
  mem_keys : ∀ key, key ∈ keys ↔
    (∃ object, Listed scope.topology lists object ∧ object.key = key) ∧ key ∉ Group.keysOf groups
  descending : keys.Pairwise fun earlier later => compare later earlier = .lt

theorem descending_unwanted (pass : Pass) :
    (pass.unwanted.map Prod.fst).Pairwise fun earlier later => compare later earlier = .lt := by
  unfold Pass.unwanted
  rw [List.map_reverse, List.pairwise_reverse, List.pairwise_map]
  exact pass.live.ascending.filter _

/-- In a prune each of the keys is deleted once. -/
theorem allows_delete {before rest : List (Key × Resource)} {entry : Key × Resource}
    {applied pruned : History} (hsnapshot : Snapshot scope lists)
    (happlied : Applied groups applied)
    (h : Applying scope groups lists (Group.keysOf groups) pass (lists ++ applied))
    (hsplit : pass.unwanted = before ++ entry :: rest)
    (hpruned : pruned.map Sigma.fst = before.map fun entry => Call.delete entry.1) :
    allows scope groups (lists ++ applied ++ pruned) (.delete entry.1) := by
  have hentry : entry.1 ∈ pass.unwanted.map Prod.fst := by simp [hsplit]
  obtain ⟨⟨object, ⟨hown, exchange, hlist, hitem⟩, hkey⟩, hunplanned⟩ := h.mem_unwanted_iff.1 hentry
  have hlisted : exchange ∈ lists ++ applied ++ pruned :=
    List.mem_append_left _ (List.mem_append_left _ hlist)
  have hdeletes : ∀ exchange ∈ pruned, ∃ earlier ∈ before, exchange.1.key? = some earlier.1 := by
    intro exchange hmem
    have hcall : exchange.1 ∈ before.map fun entry => Call.delete entry.1 :=
      hpruned ▸ List.mem_map_of_mem hmem
    obtain ⟨earlier, hearlier, hdelete⟩ := List.mem_map.1 hcall
    exact ⟨earlier, hearlier, hdelete ▸ rfl⟩
  refine ⟨⟨lists, applied ++ pruned, List.append_assoc _ _ _, hsnapshot, ?_⟩, hunplanned,
    ⟨object, ⟨hown, exchange, hlisted, hitem⟩, hkey⟩, ?_⟩
  · refine List.forall_mem_append.2 ⟨fun exchange hmem => ?_, fun exchange hmem => ?_⟩
    · obtain ⟨-, key, -, hcalled⟩ := happlied exchange hmem
      exact ⟨key, hcalled⟩
    · obtain ⟨earlier, -, hcalled⟩ := hdeletes exchange hmem
      exact ⟨earlier.1, hcalled⟩
  · refine List.forall_mem_append.2 ⟨h.key?_ne hsnapshot hunplanned, fun exchange hmem => ?_⟩
    -- What was deleted before stands before the entry, and no key occurs twice.
    obtain ⟨earlier, hearlier, hcalled⟩ := hdeletes exchange hmem
    have hne := ne_of_nodup_map (hsplit ▸ pass.nodup_unwanted) hearlier
    rw [hcalled]
    exact fun heq => hne (Option.some.inj heq)

theorem meets_prune (hsnapshot : Snapshot scope lists)
    (h : Applying scope groups lists (Group.keysOf groups) pass done) :
    (Pass.prune scope pass).Meets (recording (allows scope groups))
      (fun _ done => ∃ applied pruned keys, done = lists ++ applied ++ pruned ∧
        Prunes scope groups lists applied pruned keys) done := by
  obtain ⟨applied, rfl, happlied⟩ := h.calls
  have hloop : (forEach (Pass.delete scope) pass.unwanted pass).Meets
      (recording (allows scope groups)) (fun _ done => ∃ pruned, done = lists ++ applied ++ pruned ∧
        pruned.map Sigma.fst = pass.unwanted.map fun entry => Call.delete entry.1)
      (lists ++ applied) := by
    -- The keys that have been deleted are those of the entries so far.
    refine meets_forEach_before (fun before _ done => ∃ pruned, done = lists ++ applied ++ pruned ∧
      pruned.map Sigma.fst = before.map fun entry : Key × Resource => Call.delete entry.1) ?_
      ⟨[], by simp, rfl⟩
    rintro before entry rest pass' _ hsplit ⟨pruned, rfl, hpruned⟩
    have hnext (answer : Except ClusterError Unit) : ∃ pruned',
        lists ++ applied ++ pruned ++ [⟨.delete entry.1, answer⟩] = lists ++ applied ++ pruned' ∧
          pruned'.map Sigma.fst = (before ++ [entry]).map fun entry => Call.delete entry.1 :=
      ⟨pruned ++ [⟨.delete entry.1, answer⟩], List.append_assoc _ _ _, by simp [hpruned]⟩
    refine Pass.meets_delete (allows_delete hsnapshot happlied h hsplit hpruned) ?_ ?_ ?_
    · rintro _ rfl
      exact hnext _
    · rintro message _ rfl
      exact hnext _
    · rintro e _ rfl
      exact hnext _
  refine hloop.mono fun _ _ hpost => ?_
  obtain ⟨pruned, rfl, hpruned⟩ := hpost
  refine ⟨applied, pruned, pass.unwanted.map Prod.fst, rfl, hsnapshot, happlied, ?_,
    fun key => h.mem_unwanted_iff, descending_unwanted pass⟩
  rw [hpruned, List.map_map]
  rfl

/-- What comes of a pass over some groups. -/
def Ends (scope : Scope) (groups : List Group) : Except PassError Pass → History → Prop
  | .ok _, done => ∃ lists applied pruned keys, done = lists ++ applied ++ pruned ∧
      Prunes scope groups lists applied pruned keys
  | .error error, done => ∃ lists kind e, Listing scope lists kind ∧ error = .list kind e ∧
      done = lists ++ [⟨scope.list kind, .error e⟩]

theorem meets_overGroups (scope : Scope) (groups : List Group) :
    (Pass.overGroups scope groups).Meets (recording (allows scope groups)) (Ends scope groups)
      [] := by
  refine Pass.meets_begin_recording (fun lists kind hlisting => ⟨rfl, hlisting⟩)
    (fun lists kind e hlisting => ⟨lists, kind, e, hlisting, rfl, rfl⟩) fun lists hsnapshot => ?_
  have hstart : Applying scope groups lists []
      (Pass.start (snapshotOf scope.topology lists)) lists :=
    ⟨⟨[], (List.append_nil _).symm, fun _ hmem => (List.not_mem_nil hmem).elim⟩, rfl,
      fun _ _ => rfl⟩
  refine meets_bind.2 ((meets_applyGroups hsnapshot hstart).mono fun pass done happlied => ?_)
  refine (meets_prune hsnapshot happlied).mono fun _ _ hpruned => ?_
  obtain ⟨applied, pruned, keys, hdone, hprunes⟩ := hpruned
  exact ⟨lists, applied, pruned, keys, hdone, hprunes⟩

namespace Prunes

variable {applied pruned : History}

theorem afterSnapshot (h : Prunes scope groups lists applied pruned keys) :
    AfterSnapshot scope (lists ++ applied ++ pruned) := by
  refine ⟨lists, applied ++ pruned, List.append_assoc _ _ _, h.snapshot, ?_⟩
  refine List.forall_mem_append.2 ⟨fun exchange hmem => ?_, fun exchange hmem => ?_⟩
  · obtain ⟨-, key, -, hkey⟩ := h.applied exchange hmem
    exact ⟨key, hkey⟩
  · have hcall : exchange.1 ∈ keys.map Call.delete := h.deletes ▸ List.mem_map_of_mem hmem
    obtain ⟨key, -, hdelete⟩ := List.mem_map.1 hcall
    exact ⟨key, hdelete ▸ rfl⟩

/-- If lists show only what they were asked for, only objects of the kinds of the pass are
deleted. -/
theorem kind_mem (h : Prunes scope groups lists applied pruned keys)
    (hkinds : ∀ exchange ∈ lists, exchange.1.OfKind exchange.2) : ∀ key ∈ keys,
      key.kind ∈ scope.kinds := by
  intro key hkey
  obtain ⟨⟨object, hlisted, rfl⟩, -⟩ := (h.mem_keys key).1 hkey
  exact hlisted.kind_mem h.snapshot hkinds

/-- NetworkPolicies are deleted first, then Services, VirtualMachines, Deployments and
ConfigMaps. -/
theorem rank_descending (h : Prunes scope groups lists applied pruned keys) :
    keys.Pairwise fun earlier later => later.kind.rank ≤ earlier.kind.rank := by
  refine h.descending.imp fun {earlier later} hlt => Nat.not_lt.1 fun hrank => ?_
  have hgt : compare later.kind earlier.kind = .gt := Nat.compare_eq_gt.2 hrank
  have hkey : compare later earlier =
      (compare later.kind earlier.kind).then (compare later.name earlier.name) := rfl
  rw [hkey, hgt] at hlt
  cases hlt

/-- All deletes of the pass, in order. -/
theorem deletes_eq (h : Prunes scope groups lists applied pruned keys) :
    ((lists ++ applied ++ pruned).map Sigma.fst).filter Call.deletes = keys.map Call.delete := by
  have hlists : (lists.map Sigma.fst).filter Call.deletes = [] := by
    rw [h.snapshot.calls, List.filter_map]
    exact List.map_eq_nil_iff.2 (List.filter_eq_nil_iff.2 fun _ _ => nofun)
  have happlied : (applied.map Sigma.fst).filter Call.deletes = [] := by
    rw [List.filter_map]
    refine List.map_eq_nil_iff.2 (List.filter_eq_nil_iff.2 fun exchange hmem hdeletes => ?_)
    exact Bool.false_ne_true ((h.applied exchange hmem).1.symm.trans hdeletes)
  have hpruned : (keys.map Call.delete).filter Call.deletes = keys.map Call.delete := by
    rw [List.filter_map]
    exact congrArg _ (List.filter_eq_self.2 fun _ _ => rfl)
  rw [List.map_append, List.map_append, List.filter_append, List.filter_append, hlists, happlied,
    h.deletes, hpruned]
  rfl

end Prunes

variable {program : Program (Except PassError PassReport)} {report : PassReport}

/-- **A pass deletes exactly what was listed as its topology's and nobody planned**, whatever its
calls are answered with. -/
theorem prunes_exactly (h : Reconciles scope groups program)
    (hyields : program.Yields done (.ok report)) :
    ∃ lists applied pruned keys, done = lists ++ applied ++ pruned ∧
      Prunes scope groups lists applied pruned keys ∧
      (done.map Sigma.fst).filter Call.deletes = keys.map Call.delete ∧
      (keys.Pairwise fun earlier later => later.kind.rank ≤ earlier.kind.rank) ∧
      ((∀ exchange ∈ lists, exchange.1.OfKind exchange.2) → ∀ key ∈ keys,
        key.kind ∈ scope.kinds) := by
  obtain ⟨pass, nodes, hpass, -⟩ := h.exists_pass hyields
  have hends : Ends scope groups (.ok pass) done :=
    (meets_overGroups scope groups).post_of_yields hpass
  obtain ⟨lists, applied, pruned, keys, hdone, hprunes⟩ := hends
  refine ⟨lists, applied, pruned, keys, hdone, hprunes, ?_, hprunes.rank_descending,
    hprunes.kind_mem⟩
  exact hdone ▸ hprunes.deletes_eq

/-! ## A pass with a group that is refused -/

/-- The group of `r1` holds a NetworkPolicy, so that it is refused; the Service of `r2` is missing
and cannot be created. -/
def refusedPlans : SortedMap String NodePlan := .ofList [
  ("r1", ⟨.container, [.free (labelled .deployment "lab-r1" "lab"),
    .free (labelled .networkPolicy "lab-r1" "lab")]⟩),
  ("r2", ⟨.container, [.free (labelled .service "lab-r2" "lab")]⟩)]

def leftoverStore : Store := .ofList [
  labelled .deployment "lab-r1" "lab", labelled .configMap "lab-gone" "lab",
  labelled .service "lab-old" "lab", labelled .deployment "other-r1" "other"]

/-- Creating fails. -/
def creationFails : Call → Option ClusterError
  | .create _ => some .client
  | .list _ _ | .get _ | .replace _ | .delete _ => none

def leftoverTrace : List (Event Store) × Except PassError PassReport × Store :=
  (reconcileWorkloads "lab" "sim" refusedPlans).trace (Server.respond creationFails) leftoverStore

/-- What a traced pass reports is what it yields. -/
theorem exists_yields_of_trace (failing : Call → Option ClusterError)
    (program : Program (Except PassError PassReport)) (store : Store) {check : PassReport → Bool}
    (hcheck : (program.trace (Server.respond failing) store).2.1.toOption.any check = true) :
    ∃ report, program.Yields (history (program.trace (Server.respond failing) store).1)
      (.ok report) ∧ check report = true := by
  obtain ⟨report, hreport, hreportCheck⟩ := exists_ok_of_any hcheck
  have hyields := (reaches_trace (Server.answers_respond failing) program store).yields
  exact ⟨report, hreport ▸ hyields, hreportCheck⟩

theorem leftover_yields {check : PassReport → Bool}
    (hcheck : leftoverTrace.2.1.toOption.any check = true) :
    ∃ report, (reconcileWorkloads "lab" "sim" refusedPlans).Yields (history leftoverTrace.1)
      (.ok report) ∧ check report = true :=
  exists_yields_of_trace creationFails _ leftoverStore hcheck

/-- What nobody planned is deleted, the Service first.  The Deployment of `r1` is planned, though
nothing is done about it. -/
theorem refused_group_is_spared : ∃ done report lists applied pruned,
    (reconcileWorkloads "lab" "sim" refusedPlans).Yields done (.ok report) ∧
      done = lists ++ applied ++ pruned ∧
      Prunes (.workloads "lab" "sim") (NodePlan.groups refusedPlans) lists applied pruned
        [⟨.service, "lab-old"⟩, ⟨.configMap, "lab-gone"⟩] := by
  obtain ⟨report, hyields, -⟩ := @leftover_yields (fun _ => true) (by decide +kernel)
  have hdeletes : (leftoverTrace.1.map Event.call).filter Call.deletes =
      [.delete ⟨.service, "lab-old"⟩, .delete ⟨.configMap, "lab-gone"⟩] := by decide +kernel
  obtain ⟨lists, applied, pruned, keys, hdone, hprunes, hkeys, -⟩ :=
    prunes_exactly (.workloads "lab" "sim" refusedPlans) hyields
  have hcalls : (history leftoverTrace.1).map Sigma.fst = leftoverTrace.1.map Event.call := by
    simp [history]
  obtain rfl : keys = [⟨.service, "lab-old"⟩, ⟨.configMap, "lab-gone"⟩] := by
    refine (List.map_inj_right fun _ _ heq => Call.delete.inj heq).1 (hkeys.symm.trans ?_)
    exact (congrArg _ hcalls).trans hdeletes
  exact ⟨_, report, lists, applied, pruned, hyields, hdone, hprunes⟩

end NetLab.Pruning
