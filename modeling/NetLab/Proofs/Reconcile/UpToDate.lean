import NetLab.Proofs.Reconcile.Accounting
import NetLab.Proofs.Reconcile.Mirror

/-!
# What a pass leaves alone

An object that its topology owns, and that has not drifted from anything planned under its key, is
left alone by every pass that finds it (`Reconciles.spares`): no call is about its
key, whatever becomes of the other objects.  An object that has drifted from something planned under
its key, which depends on nothing, is replaced by every pass that finds it
(`Reconciles.overwrites`), even if it is as another planned object asks for.
-/

namespace NetLab

open Cluster Kube Program

/-- **Nothing planned under a key has drifted** from an object, and something is planned there. -/
structure UpToDate (groups : List Group) (key : Key) (live : Resource) : Prop where
  planned : key ∈ Group.keysOf groups
  unchanged : ∀ group ∈ groups, ∀ planned ∈ group.objects, planned.key = key →
    planned.object.needsUpdate live = false

instance (groups : List Group) (key : Key) (live : Resource) :
    Decidable (UpToDate groups key live) :=
  decidable_of_iff (key ∈ Group.keysOf groups ∧ ∀ group ∈ groups, ∀ planned ∈ group.objects,
      planned.key = key → planned.object.needsUpdate live = false)
    ⟨fun h => ⟨h.1, h.2⟩, fun h => ⟨h.planned, h.unchanged⟩⟩

/-- **A planned object contests an object** if it asks for another one under its key.  It waits for
nothing. -/
structure PlannedObject.Contests (planned : PlannedObject) (key : Key) (live : Resource) : Prop where
  key : planned.key = key
  free : planned.dependencies = []
  drifted : planned.object.needsUpdate live = true

namespace Pass

open Accounting

variable {scope : Scope} {groups : List Group} {key : Key} {live : Resource} {lists done : History}
  {pass : Pass}

/-- The snapshot of the lists has an object under the key. -/
def Found (scope : Scope) (lists : History) (key : Key) (live : Resource) : Prop :=
  (snapshotOf scope.topology lists).get? key = some live

/-- **A pass that leaves an object alone**, if it has found it in its snapshot. -/
structure LeavesAlone (scope : Scope) (lists : History) (key : Key) (live : Resource)
    (planned : List Key) (pass : Pass) (done : History) : Prop where
  snapshot : snapshotOf scope.topology done = snapshotOf scope.topology lists
  planned : pass.planned = planned
  kept : Found scope lists key live → pass.live.get? key = some live
  calls : Found scope lists key live → about key done = []

namespace LeavesAlone

variable {planned : List Key} {other : Key}

theorem congr {pass' : Pass} (h : LeavesAlone scope lists key live planned pass done)
    (hlive : pass'.live = pass.live) (hplanned : pass'.planned = pass.planned) :
    LeavesAlone scope lists key live planned pass' done :=
  ⟨h.snapshot, hplanned.trans h.planned, hlive ▸ h.kept, h.calls⟩

/-- A call about another key. -/
theorem called (h : LeavesAlone scope lists key live planned pass done)
    (hne : Found scope lists key live → other ≠ key) {call : Call} (answer : call.Answer)
    (hkey : call.key? = some other) :
    LeavesAlone scope lists key live planned pass (done ++ [⟨call, answer⟩]) where
  snapshot := (snapshotOf_called _ _ answer hkey).trans h.snapshot
  planned := h.planned
  kept := h.kept
  calls hfound := by
    have hother : call.key? ≠ some key := by simpa [hkey] using hne hfound
    rw [about_concat, h.calls hfound, if_neg hother]
    rfl

/-- What is taken to be live under another key. -/
theorem observe (h : LeavesAlone scope lists key live planned pass done)
    (hne : Found scope lists key live → other ≠ key) (object : Resource) :
    LeavesAlone scope lists key live planned (pass.observe other object) done where
  snapshot := h.snapshot
  planned := h.planned
  kept hfound := by
    rw [observe_live, SortedMap.get?_insert_of_ne (hne hfound).symm]
    exact h.kept hfound
  calls := h.calls

/-- Something was written under another key. -/
theorem written (h : LeavesAlone scope lists key live planned pass done)
    (hne : Found scope lists key live → other ≠ key) (action : Action) (change : Change)
    (object : Resource) : LeavesAlone scope lists key live planned
      (((pass.record action change).observe other object).markReady other) done :=
  have hrecorded : LeavesAlone scope lists key live planned (pass.record action change) done :=
    h.congr rfl rfl
  (hrecorded.observe hne object).congr rfl rfl

end LeavesAlone

/-- One object is applied.  If it is planned under the key, it finds no drift. -/
theorem meets_applyObject_leavesAlone {type? : Option WorkloadType} {planned : PlannedObject}
    {keys : List Key} (h : LeavesAlone scope lists key live keys pass done)
    (hunchanged : planned.key = key → planned.object.needsUpdate live = false) :
    (applyObject scope type? planned pass).Meets (recording fun _ _ => True)
      (LeavesAlone scope lists key live keys) done := by
  refine meets_applyObject (fun _ _ _ => h.congr rfl rfl) (fun _ hnone => ?_)
    (fun other _ hother hdrift => ?_) (fun _ _ _ _ => h.congr rfl rfl)
  · have hne : Found scope lists key live → planned.key ≠ key := by
      rintro hfound rfl
      cases (h.kept hfound).symm.trans hnone
    refine meets_create trivial ?_ ?_ ?_
    · rintro created _ rfl
      exact (h.called hne _ rfl).written hne _ _ _
    · rintro message _ rfl
      have hcalled := @LeavesAlone.called _ _ _ _ _ _ _ _ h hne (.create planned.object)
        (.error (.alreadyExists message)) rfl
      refine meets_adopt trivial ?_ ?_ ?_
      · rintro existing _ rfl -
        exact ((hcalled.called hne _ rfl).observe hne existing).congr rfl rfl
      · rintro existing _ rfl -
        exact (hcalled.called hne _ rfl).congr rfl rfl
      · rintro e _ rfl
        exact (hcalled.called hne _ rfl).congr rfl rfl
    · rintro e _ rfl
      exact (h.called hne _ rfl).congr rfl rfl
  · have hne : Found scope lists key live → planned.key ≠ key := by
      rintro hfound rfl
      obtain rfl := Option.some.inj ((h.kept hfound).symm.trans hother)
      cases (hunchanged rfl).symm.trans hdrift
    have hkey : (Call.replace (planned.object.update other)).key? = some planned.key :=
      congrArg some (Resource.update_key _ _)
    refine meets_replace trivial ?_ ?_ ?_
    · rintro replaced _ rfl
      exact (h.called hne _ hkey).written hne _ _ _
    · rintro message _ rfl
      exact (h.called hne _ hkey).congr rfl rfl
    · rintro e _ rfl
      exact (h.called hne _ hkey).congr rfl rfl

/-- The objects of one more group are applied. -/
theorem meets_applyGroup_leavesAlone {group : Group} {keys : List Key}
    (h : LeavesAlone scope lists key live keys pass done)
    (hunchanged : ∀ planned ∈ group.objects, planned.key = key →
      planned.object.needsUpdate live = false) :
    (applyGroup scope group.type? group.owner group.objects pass).Meets (recording fun _ _ => True)
      (LeavesAlone scope lists key live (keys ++ group.keys)) done := by
  have hplan : LeavesAlone scope lists key live (keys ++ group.keys) (pass.plan group.objects)
      done := ⟨h.snapshot, h.planned ▸ rfl, h.kept, h.calls⟩
  refine meets_applyGroup (fun _ _ _ => hplan.congr rfl rfl) (fun _ => hplan.congr rfl rfl)
    fun order _ horder => ?_
  refine meets_forEach_mem _ (fun planned hmem pass done h => ?_) hplan
  refine meets_applyObject_leavesAlone h (hunchanged planned ?_)
  exact (PlannedObject.perm_of_applyOrder? horder).mem_iff.1 hmem

/-- What was planned is not deleted. -/
theorem meets_prune_leavesAlone {keys : List Key} (hkey : key ∈ keys)
    (h : LeavesAlone scope lists key live keys pass done) :
    (prune scope pass).Meets (recording fun _ _ => True)
      (LeavesAlone scope lists key live keys) done := by
  have hplanned : key ∈ pass.planned := h.planned ▸ hkey
  refine meets_forEach_mem _ (fun entry hmem pass done h => ?_) h
  have hne : Found scope lists key live → entry.1 ≠ key := by
    rintro - rfl
    exact (mem_unwanted.1 hmem).2 hplanned
  refine meets_delete trivial ?_ ?_ ?_
  · rintro _ rfl
    exact (h.called hne _ rfl).congr rfl rfl
  · rintro message _ rfl
    exact (h.called hne _ rfl).congr rfl rfl
  · rintro e _ rfl
    exact (h.called hne _ rfl).congr rfl rfl

/-- The whole pass leaves an object alone that is up to date. -/
theorem meets_overGroups_leavesAlone (h : UpToDate groups key live) :
    (overGroups scope groups).Meets (recording fun _ _ => True)
      (fun result done => ∀ pass, result = .ok pass →
        (snapshotOf scope.topology done).get? key = some live → about key done = []) [] := by
  refine meets_begin_recording (fun _ _ _ => trivial) (fun _ _ _ _ _ => nofun) fun lists hlists => ?_
  have hstart : LeavesAlone scope lists key live [] (start (snapshotOf scope.topology lists))
      lists := by
    refine ⟨rfl, rfl, id, fun _ => List.filter_eq_nil_iff.2 fun exchange hmem => ?_⟩
    obtain ⟨kind, -, hcall⟩ := hlists.exists_list hmem
    simp [hcall, Scope.list, Call.key?]
  have happlied : (applyGroups scope groups (start (snapshotOf scope.topology lists))).Meets
      (recording fun _ _ => True)
      (LeavesAlone scope lists key live (Group.keysOf groups)) lists := by
    refine meets_forEach_before (fun before =>
      LeavesAlone scope lists key live (Group.keysOf before)) ?_ hstart
    intro before group rest pass done hsplit h'
    have hmem : group ∈ groups := hsplit ▸ List.mem_append_right _ List.mem_cons_self
    rw [Group.keysOf_append, Group.keysOf_singleton]
    exact meets_applyGroup_leavesAlone h' (h.unchanged group hmem)
  refine meets_bind.2 (happlied.mono fun pass done h' => ?_)
  refine (meets_prune_leavesAlone h.planned h').mono fun pass done h' _ _ hget => ?_
  exact h'.calls (by rwa [Found, ← h'.snapshot])

/-! ## What is replaced -/

/-- A replacement was sent for the object of the key. -/
def Replaced (key : Key) (done : History) : Prop :=
  ∃ object answer, (⟨.replace object, answer⟩ : Exchange) ∈ done ∧ object.key = key

theorem Replaced.append (h : Replaced key done) (more : History) : Replaced key (done ++ more) := by
  obtain ⟨object, answer, hmem, hkey⟩ := h
  exact ⟨object, answer, List.mem_append_left _ hmem, hkey⟩

/-- **A pass that has replaced an object, or knows it as it found it**; in that case nothing that it
has applied so far asks for another object. -/
structure Watches (scope : Scope) (lists : History) (key : Key) (live : Resource)
    (applied : List PlannedObject) (pass : Pass) (done : History) : Prop where
  snapshot : snapshotOf scope.topology done = snapshotOf scope.topology lists
  found : Found scope lists key live → Replaced key done ∨
    pass.live.get? key = some live ∧ ∀ planned ∈ applied, ¬ planned.Contests key live

namespace Watches

variable {applied : List PlannedObject} {planned : PlannedObject} {pass' : Pass}

theorem congr (h : Watches scope lists key live applied pass done) (hlive : pass'.live = pass.live) :
    Watches scope lists key live applied pass' done :=
  ⟨h.snapshot, hlive ▸ h.found⟩

/-- One more object is applied, with these calls about it. -/
theorem next (h : Watches scope lists key live applied pass done) {more : History}
    (hmore : ∀ exchange ∈ more, exchange.1.key? = some planned.key)
    (hstep : pass.live.get? key = some live → Replaced key more ∨
      pass'.live.get? key = some live ∧ ¬ planned.Contests key live) :
    Watches scope lists key live (applied ++ [planned]) pass' (done ++ more) where
  snapshot := (snapshotOf_append fun exchange hmem => ⟨_, hmore exchange hmem⟩).trans h.snapshot
  found hfound := by
    rcases h.found hfound with hreplaced | ⟨hlive, hnone⟩
    · exact Or.inl (hreplaced.append more)
    · rcases hstep hlive with ⟨object, answer, hmem, hkey⟩ | ⟨hlive', hplanned⟩
      · exact Or.inl ⟨object, answer, List.mem_append_right _ hmem, hkey⟩
      · refine Or.inr ⟨hlive', List.forall_mem_append.2 ⟨hnone, ?_⟩⟩
        exact List.forall_mem_singleton.2 hplanned

/-- What is done about another key changes nothing. -/
theorem other (h : Watches scope lists key live applied pass done) {more : History}
    (hmore : ∀ exchange ∈ more, exchange.1.key? = some planned.key)
    (hne : pass.live.get? key = some live → planned.key ≠ key)
    (hkept : planned.key ≠ key → pass'.live.get? key = pass.live.get? key) :
    Watches scope lists key live (applied ++ [planned]) pass' (done ++ more) := by
  refine h.next hmore fun hlive => Or.inr ⟨?_, fun hcontests => hne hlive hcontests.key⟩
  rw [hkept (hne hlive), hlive]

/-- Nothing is called about the object. -/
theorem keep (h : Watches scope lists key live applied pass done)
    (hlive : pass'.live = pass.live) (hnone : pass.live.get? key = some live →
      ¬ planned.Contests key live) :
    Watches scope lists key live (applied ++ [planned]) pass' done where
  snapshot := h.snapshot
  found hfound := (h.found hfound).imp_right fun ⟨hkept, hbefore⟩ =>
    ⟨hlive ▸ hkept, List.forall_mem_append.2
      ⟨hbefore, List.forall_mem_singleton.2 (hnone hkept)⟩⟩

end Watches

/-- One object is applied.  If it contests what was found, it replaces it. -/
theorem meets_applyObject_watches {type? : Option WorkloadType} {planned : PlannedObject}
    {applied : List PlannedObject} (h : Watches scope lists key live applied pass done) :
    (applyObject scope type? planned pass).Meets (recording fun _ _ => True)
      (Watches scope lists key live (applied ++ [planned])) done := by
  have hone {call : Call} (answer : call.Answer) (hkey : call.key? = some planned.key) :
      ∀ exchange ∈ ([⟨call, answer⟩] : History), exchange.1.key? = some planned.key :=
    List.forall_mem_singleton.2 hkey
  refine meets_applyObject (fun dependency hmem _ => ?_) (fun _ hmissing => ?_)
    (fun other _ hother hdrift => ?_) (fun other _ hother hsame => ?_)
  · refine h.keep rfl fun _ hcontests => ?_
    rw [hcontests.free] at hmem
    cases hmem
  · have hne : pass.live.get? key = some live → planned.key ≠ key := by
      rintro hlive rfl
      cases hmissing.symm.trans hlive
    refine meets_create trivial ?_ ?_ ?_
    · rintro created _ rfl
      exact h.other (hone _ rfl) hne fun hne => SortedMap.get?_insert_of_ne hne.symm
    · rintro message _ rfl
      have hboth (answer : (Call.get planned.key).Answer) : ∀ exchange ∈
          ([⟨.create planned.object, .error (.alreadyExists message)⟩] ++
            [⟨.get planned.key, answer⟩] : History), exchange.1.key? = some planned.key :=
        List.forall_mem_append.2 ⟨hone _ rfl, hone _ rfl⟩
      refine meets_adopt trivial ?_ ?_ ?_
      · rintro existing _ rfl -
        rw [List.append_assoc]
        exact h.other (hboth _) hne fun hne => SortedMap.get?_insert_of_ne hne.symm
      · rintro existing _ rfl -
        rw [List.append_assoc]
        exact h.other (hboth _) hne fun _ => rfl
      · rintro e _ rfl
        rw [List.append_assoc]
        exact h.other (hboth _) hne fun _ => rfl
    · rintro e _ rfl
      exact h.other (hone _ rfl) hne fun _ => rfl
  · have hkey : (Call.replace (planned.object.update other)).key? = some planned.key :=
      congrArg some (Resource.update_key _ _)
    have hreplaced (answer : (Call.replace (planned.object.update other)).Answer) {pass' : Pass}
        (hkept : planned.key ≠ key → pass'.live.get? key = pass.live.get? key) :
        Watches scope lists key live (applied ++ [planned]) pass'
          (done ++ [⟨.replace (planned.object.update other), answer⟩]) := by
      refine h.next (hone answer hkey) fun hlive => ?_
      by_cases heq : planned.key = key
      · exact Or.inl ⟨_, answer, List.mem_cons_self, (Resource.update_key _ _).trans heq⟩
      · exact Or.inr ⟨(hkept heq).trans hlive, fun hcontests => heq hcontests.key⟩
    refine meets_replace trivial ?_ ?_ ?_
    · rintro replaced _ rfl
      exact hreplaced _ fun hne => SortedMap.get?_insert_of_ne hne.symm
    · rintro message _ rfl
      exact hreplaced _ fun _ => rfl
    · rintro e _ rfl
      exact hreplaced _ fun _ => rfl
  · refine h.keep rfl fun hlive hcontests => ?_
    obtain rfl := hcontests.key
    obtain rfl := Option.some.inj (hother.symm.trans hlive)
    cases hsame.symm.trans hcontests.drifted

/-- The objects of a group that is not refused are applied. -/
theorem meets_applyGroup_watches {group : Group} {applied : List PlannedObject}
    (haccepted : group.refusal? scope = none)
    (h : Watches scope lists key live applied pass done) :
    (applyGroup scope group.type? group.owner group.objects pass).Meets (recording fun _ _ => True)
      (Watches scope lists key live (applied ++ group.objects)) done := by
  obtain ⟨order, horder, happly⟩ := exists_order_of_refusal_none haccepted
  rw [happly]
  have hstart : Watches scope lists key live (applied ++ []) (pass.plan group.objects) done := by
    rw [List.append_nil]
    exact h.congr rfl
  refine (meets_forEach_before (fun before => Watches scope lists key live (applied ++ before))
    (fun before planned rest pass done _ h => ?_) hstart).mono fun pass done h => ?_
  · rw [← List.append_assoc]
    exact meets_applyObject_watches h
  · refine ⟨h.snapshot, fun hfound => (h.found hfound).imp_right ?_⟩
    rintro ⟨hlive, hnone⟩
    refine ⟨hlive, fun planned hmem => hnone planned ?_⟩
    simpa [(PlannedObject.perm_of_applyOrder? horder).mem_iff] using hmem

/-- A pass over groups that are not refused replaces what it finds if one of them contests it. -/
theorem meets_overGroups_replaced (haccepted : ∀ group ∈ groups, group.refusal? scope = none)
    (hcontests : ∃ group ∈ groups, ∃ planned ∈ group.objects, planned.Contests key live) :
    (overGroups scope groups).Meets (recording fun _ _ => True)
      (fun result done => ∀ pass, result = .ok pass →
        (snapshotOf scope.topology done).get? key = some live → Replaced key done) [] := by
  refine meets_begin_recording (fun _ _ _ => trivial) (fun _ _ _ _ _ => nofun) fun lists _ => ?_
  have hstart : Watches scope lists key live [] (start (snapshotOf scope.topology lists)) lists :=
    ⟨rfl, fun hfound => Or.inr ⟨hfound, List.forall_mem_nil _⟩⟩
  have happlied : (applyGroups scope groups (start (snapshotOf scope.topology lists))).Meets
      (recording fun _ _ => True)
      (Watches scope lists key live (groups.flatMap Group.objects)) lists := by
    refine meets_forEach_before (fun before =>
      Watches scope lists key live (before.flatMap Group.objects)) ?_ hstart
    intro before group rest pass done hsplit h
    have hmem : group ∈ groups := hsplit ▸ List.mem_append_right _ List.mem_cons_self
    rw [List.flatMap_append, List.flatMap_singleton]
    exact meets_applyGroup_watches (haccepted group hmem) h
  refine meets_bind.2 (happlied.mono fun pass done h => ?_)
  have hreplaced : Found scope done key live → Replaced key done := by
    intro hfound
    rw [Found, h.snapshot] at hfound
    refine (h.found hfound).resolve_right fun ⟨_, hnone⟩ => ?_
    obtain ⟨group, hgroup, planned, hplanned, hcontests⟩ := hcontests
    exact hnone planned (List.mem_flatMap.2 ⟨group, hgroup, hplanned⟩) hcontests
  -- What is deleted after that changes neither the snapshot nor what was called before.
  have hlater {entry : Key × Resource} {done : History}
      (h : Found scope done key live → Replaced key done) (answer : (Call.delete entry.1).Answer) :
      Found scope (done ++ [⟨.delete entry.1, answer⟩]) key live →
        Replaced key (done ++ [⟨.delete entry.1, answer⟩]) := by
    intro hfound
    rw [Found, snapshotOf_called _ _ answer rfl] at hfound
    exact (h hfound).append _
  refine (meets_forEach_mem (fun _ done => Found scope done key live → Replaced key done)
    (fun entry _ pass done h => ?_) hreplaced).mono fun pass done h _ _ => h
  refine meets_delete trivial ?_ ?_ ?_
  · rintro _ rfl
    exact hlater h _
  · rintro message _ rfl
    exact hlater h _
  · rintro e _ rfl
    exact hlater h _

end Pass

/-- **A pass spares an object** if it makes no call about its key whenever it finds it. -/
def Spares (program : Program (Except PassError PassReport)) (topology : String) (key : Key)
    (live : Resource) : Prop :=
  ∀ done report, program.Yields done (.ok report) →
    (snapshotOf topology done).get? key = some live → Accounting.about key done = []

/-- **What is up to date is left alone**, whatever becomes of the rest. -/
theorem Reconciles.spares {scope : Scope} {groups : List Group}
    {program : Program (Except PassError PassReport)} (h : Reconciles scope groups program)
    {key : Key} {live : Resource} (hcurrent : UpToDate groups key live) :
    Spares program scope.topology key live := by
  intro done report hyields hfound
  obtain ⟨pass, nodes, hpass, -⟩ := h.exists_pass hyields
  exact (Pass.meets_overGroups_leavesAlone hcurrent).post_of_yields hpass pass rfl hfound

/-- **A pass overwrites an object** if it sends a replacement for it whenever it finds it. -/
def Overwrites (program : Program (Except PassError PassReport)) (topology : String) (key : Key)
    (live : Resource) : Prop :=
  ∀ done report, program.Yields done (.ok report) →
    (snapshotOf topology done).get? key = some live → Pass.Replaced key done

/-- **What is contested is overwritten**, whatever becomes of the rest. -/
theorem Reconciles.overwrites {scope : Scope} {groups : List Group}
    {program : Program (Except PassError PassReport)} (h : Reconciles scope groups program)
    (haccepted : ∀ group ∈ groups, group.refusal? scope = none) {key : Key} {live : Resource}
    (hcontests : ∃ group ∈ groups, ∃ planned ∈ group.objects, planned.Contests key live) :
    Overwrites program scope.topology key live := by
  intro done report hyields hfound
  obtain ⟨pass, nodes, hpass, -⟩ := h.exists_pass hyields
  exact (Pass.meets_overGroups_replaced haccepted hcontests).post_of_yields hpass pass rfl hfound

/-! ## What a pass finds -/

/-- **The lists of a pass** leave the store as it is, and show what the topology owns of their
kinds. -/
theorem Cluster.Program.Reaches.mirrors {α : Type} {p q : Program α} {scope : Scope}
    {server : Server} (hserver : server.Faithful scope.topology) {s t : Store}
    {events : List (Event Store)} {kinds : List Kind}
    (hcalls : (history events).map Sigma.fst = kinds.map scope.list)
    (hcomplete : ∀ exchange ∈ history events, exchange.1.ShowsAll exchange.2)
    (h : p.Reaches server.Answers s events q t) :
    t = s ∧ Mirrors scope.topology (· ∈ kinds) (snapshotOf scope.topology (history events)) s := by
  induction events using List.reverseRecOn generalizing q t kinds with
  | nil =>
    obtain rfl : kinds = [] := by simpa [history] using hcalls.symm
    cases h with
    | here => exact ⟨rfl, fun key object => by simp [history, snapshotOf]⟩
  | append_singleton events last ih =>
    obtain ⟨call, answer, after⟩ := last
    have hhistory : history (events ++ [⟨call, answer, after⟩]) =
        history events ++ [⟨call, answer⟩] := List.map_append
    rw [hhistory, List.map_append] at hcalls
    obtain ⟨kinds, before, rfl, hbefore, hlast⟩ := List.append_eq_map_iff.1 hcalls
    obtain ⟨kind, rfl, hcall⟩ := List.map_eq_singleton_iff.1 hlast
    obtain rfl : scope.list kind = call := hcall
    rw [hhistory] at hcomplete ⊢
    obtain ⟨hearlier, hshown⟩ := List.forall_mem_append.1 hcomplete
    obtain ⟨r, u, hfirst, hanswer⟩ := h.last
    obtain ⟨rfl, hmirrors⟩ := ih hbefore.symm hearlier hfirst
    rw [snapshotOf_concat]
    cases answer with
    | ok items =>
      obtain ⟨hlist, rfl⟩ := hanswer
      refine ⟨rfl, (hmirrors.addOwned (hserver.mem_list_iff hlist)).congr fun other => ?_⟩
      simp
    | error e =>
      obtain ⟨hrefused, rfl⟩ := hanswer
      cases e with
      | notFound message =>
        obtain rfl : kind = .virtualMachine := hshown _ List.mem_cons_self
        have hnone := hserver.honest_list (hrefused.resolve_left id)
        refine ⟨rfl, (hmirrors.add_unserved hnone).congr fun other => ?_⟩
        simp
      | alreadyExists _ | conflict _ | api _ | client =>
        exact (hshown _ List.mem_cons_self).elim

/-- **What a pass finds** is what its topology owns in the store at its start. -/
theorem Reconciles.mirrors {scope : Scope} {groups : List Group}
    {program : Program (Except PassError PassReport)} (h : Reconciles scope groups program)
    {server : Server} (hserver : server.Faithful scope.topology) {s t : Store}
    {events : List (Event Store)} {report : PassReport}
    (hreach : program.Reaches server.Answers s events (.done (.ok report)) t) :
    Mirrors scope.topology (· ∈ scope.kinds) (snapshotOf scope.topology (history events)) s := by
  obtain ⟨pass, nodes, hpass, -⟩ := h.exists_pass hreach.yields
  obtain ⟨lists, applied, pruned, keys, hdone, hprunes⟩ :=
    (Pruning.meets_overGroups scope groups).post_of_yields hpass
  obtain ⟨lists, more, hsplit, hsnapshot, hmore⟩ := hprunes.afterSnapshot
  obtain ⟨listing, later, rfl, rfl, rfl⟩ := List.map_eq_append_iff.1 (hdone.trans hsplit)
  obtain ⟨q, u, hlisting, -⟩ := hreach.split
  have hmirrors := (hlisting.mirrors hserver hsnapshot.calls hsnapshot.complete).2
  rw [← snapshotOf_append hmore] at hmirrors
  rwa [history, List.map_append]

/-- **A pass reports** if none of its lists is refused. -/
theorem Reconciles.exists_report {scope : Scope} {groups : List Group}
    {program : Program (Except PassError PassReport)} (h : Reconciles scope groups program)
    {server : Server} (havailable : server.Available)
    (hlists : ∀ s kind e, ¬ server.refuses s (scope.list kind) e) (s : Store) :
    ∃ events report t, program.Reaches server.Answers s events (.done (.ok report)) t := by
  obtain ⟨events, result, t, hreach⟩ :=
    Program.Reaches.exists_done (server.exists_answer havailable) program s
  cases result with
  | ok report => exact ⟨events, report, t, hreach⟩
  | error error =>
    have hmeets : program.Meets (recording (Pruning.allows scope groups)) (fun result done =>
        ∀ error, result = .error error → ∃ before kind e,
          done = before ++ [(⟨scope.list kind, .error e⟩ : Exchange)]) [] := by
      refine h.meets (Pruning.meets_overGroups scope groups) (fun _ _ _ _ _ => nofun) ?_
      rintro _ done ⟨lists, kind, e, -, -, hdone⟩ _ -
      exact ⟨lists, kind, e, hdone⟩
    obtain ⟨before, kind, e, hdone⟩ := hmeets.post_of_yields hreach.yields error rfl
    obtain ⟨events, failed, rfl, -, hfailed⟩ := List.map_eq_append_iff.1 hdone
    obtain ⟨⟨call, answer, after⟩, rfl, hcall⟩ := List.map_eq_singleton_iff.1 hfailed
    cases hcall
    obtain ⟨_, u, -, hrefused, -⟩ := hreach.last
    exact absurd (hrefused.resolve_left id) (hlists u kind e)

end NetLab
