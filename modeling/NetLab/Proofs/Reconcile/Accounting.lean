import Mathlib.Data.List.Nodup
import NetLab.Proofs.Reconcile.Pruning

/-!
# What a report accounts for

The report of a pass that comes to its end is an exact account of it (`report_is_exact`): what it
lists as created, updated and deleted is what was, in the order of the calls; every planned object
is in order, or has one error that says why not, or belongs to a group that was refused as a whole;
and no key is named twice.

A pass handles each key once.  What it knows and says of a key is its `Standing`: the calls about
it, the errors that name it, whether it is in order, and the object that is taken to be live.
Applying or deleting an object changes the standing of its own key only, which nothing has touched
before.
-/

namespace NetLab

open Cluster Kube Program

/-- The changes of a kind that a report lists. -/
def PassReport.changes (report : PassReport) : Action → List Change
  | .create => report.created
  | .update => report.updated
  | .delete => report.deleted

/-- The key that a call has changed in this way, as its answer tells.  What is gone already counts
as deleted. -/
def Cluster.Call.changed? : Action → (call : Call) → call.Answer → Option Key
  | .create, .create object, .ok _ | .update, .replace object, .ok _ => some object.key
  | .delete, .delete key, .ok _ | .delete, .delete key, .error (.notFound _) => some key
  | .create, .create _, .error _ | .update, .replace _, .error _ => none
  | .delete, .delete _, .error _ => none
  | _, _, _ => none

namespace Accounting

/-- The keys that were changed in this way, in the order of the calls. -/
def changed (action : Action) (done : History) : List Key :=
  done.filterMap fun exchange => exchange.1.changed? action exchange.2

/-- The calls about a key. -/
def about (key : Key) (done : History) : History :=
  done.filter fun exchange => exchange.1.key? = some key

/-- The errors that name a key. -/
def naming (key : Key) (errors : List ResourceError) : List ResourceError :=
  errors.filter fun error => error.key? = some key

/-- The errors that name no key. -/
def unnamed (errors : List ResourceError) : List ResourceError :=
  errors.filter fun error => error.key? = none

/-- **How a planned object fares**, depending on what the snapshot has under its key: the calls
about it, and the error if it is not in order at the end. -/
inductive Fares (topology : String) (p : PlannedObject) :
    Option Resource → History → Option ResourceError → Prop where
  /-- Something that it depends on does not exist. -/
  | blocked (live? : Option Resource) {dependency : Key} (hmem : dependency ∈ p.dependencies) :
      Fares topology p live? [] (some (.dependencyNotReady p.key dependency))
  | created (stored : Resource) :
      Fares topology p none [⟨.create p.object, .ok stored⟩] none
  /-- It was there when it was to be created, and the topology owns it. -/
  | adopted (message : String) {existing : Resource} (hown : existing.ownedBy topology = true) :
      Fares topology p none
        [⟨.create p.object, .error (.alreadyExists message)⟩, ⟨.get p.key, .ok existing⟩] none
  | taken (message : String) {existing : Resource} (hforeign : existing.ownedBy topology = false) :
      Fares topology p none
        [⟨.create p.object, .error (.alreadyExists message)⟩, ⟨.get p.key, .ok existing⟩]
        (some (.nameTaken p.key (existing.label? Labels.topology)))
  | unread (message : String) (e : ClusterError) :
      Fares topology p none
        [⟨.create p.object, .error (.alreadyExists message)⟩, ⟨.get p.key, .error e⟩]
        (some (.api p.key .create e))
  | uncreated {e : ClusterError} (hother : ∀ message, e ≠ .alreadyExists message) :
      Fares topology p none [⟨.create p.object, .error e⟩] (some (.api p.key .create e))
  | unchanged {live : Resource} (hsame : p.object.needsUpdate live = false) :
      Fares topology p (some live) [] none
  | replaced {live : Resource} (hdrift : p.object.needsUpdate live = true) (stored : Resource) :
      Fares topology p (some live) [⟨.replace (p.object.update live), .ok stored⟩] none
  | conflicting {live : Resource} (hdrift : p.object.needsUpdate live = true) (message : String) :
      Fares topology p (some live)
        [⟨.replace (p.object.update live), .error (.conflict message)⟩]
        (some (.conflict p.key message))
  | unwritten {live : Resource} (hdrift : p.object.needsUpdate live = true) {e : ClusterError}
      (hother : ∀ message, e ≠ .conflict message) :
      Fares topology p (some live) [⟨.replace (p.object.update live), .error e⟩]
        (some (.api p.key .update e))

/-! ## Standings -/

/-- What a pass knows and says of a key. -/
@[ext]
structure Standing where
  exchanges : History
  errors : List ResourceError
  ready : Bool
  live : Option Resource

/-- Nothing was done about the key. -/
def Standing.untouched (live? : Option Resource) : Standing := ⟨[], [], false, live?⟩

/-- Where a key stands. -/
def standing (pass : Pass) (done : History) (key : Key) : Standing where
  exchanges := about key done
  errors := naming key pass.report.errors
  ready := pass.ready.contains key
  live := pass.live.get? key

variable {scope : Scope} {type? : Option WorkloadType} {pass pass' pass'' : Pass}
  {done done' done'' : History} {key : Key} {keys more : List Key} {st : Standing}

/-- The report lists what was changed, in order. -/
def Balanced (pass : Pass) (done : History) : Prop :=
  ∀ action, (pass.report.changes action).map Change.key = changed action done

theorem changes_fail (error : ResourceError) (action : Action) :
    (pass.fail error).report.changes action = pass.report.changes action := by
  cases action <;> rfl

theorem changes_record (action other : Action) (change : Change) :
    (pass.record action change).report.changes other =
      pass.report.changes other ++ if other = action then [change] else [] := by
  cases action <;> cases other <;> simp [Pass.record, PassReport.changes]

/-- A call changes only the object that it is about. -/
theorem key?_of_changed {action : Action} {call : Call} {answer : call.Answer}
    (h : call.changed? action answer = some key) : call.key? = some key := by
  unfold Call.changed? at h
  split at h <;> first | exact h | cases h

theorem changed_concat (action : Action) (exchange : Exchange) :
    changed action (done ++ [exchange]) =
      changed action done ++ (exchange.1.changed? action exchange.2).toList := by
  cases h : exchange.1.changed? action exchange.2 <;> simp [changed, h]

theorem about_concat (exchange : Exchange) :
    about key (done ++ [exchange]) =
      about key done ++ if exchange.1.key? = some key then [exchange] else [] := by
  simp [about, List.filter_cons]

theorem naming_concat (errors : List ResourceError) (error : ResourceError) :
    naming key (errors ++ [error]) =
      naming key errors ++ if error.key? = some key then [error] else [] := by
  simp [naming, List.filter_cons]

/-- **Work about some keys** leaves the standing of all others as it is. -/
structure Works (keys : List Key) (pass : Pass) (done : History) (pass' : Pass)
    (done' : History) : Prop where
  balanced : Balanced pass' done'
  others : ∀ key, key ∉ keys → standing pass' done' key = standing pass done key
  unnamed : unnamed pass'.report.errors = unnamed pass.report.errors
  planned : pass'.planned = pass.planned
  listed : ∀ topology, snapshotOf topology done' = snapshotOf topology done

/-- Work about one key, and where the key stands after it. -/
structure Steps (key : Key) (pass : Pass) (done : History) (pass' : Pass) (done' : History)
    (st : Standing) : Prop extends Works [key] pass done pass' done' where
  own : standing pass' done' key = st

theorem Works.refl (h : Balanced pass done) : Works [] pass done pass done :=
  ⟨h, fun _ _ => rfl, rfl, rfl, fun _ => rfl⟩

theorem Works.trans (h : Works keys pass done pass' done')
    (h' : Works more pass' done' pass'' done'') :
    Works (keys ++ more) pass done pass'' done'' where
  balanced := h'.balanced
  others key hkey := by
    rw [List.mem_append, not_or] at hkey
    rw [h'.others key hkey.2, h.others key hkey.1]
  unnamed := h'.unnamed.trans h.unnamed
  planned := h'.planned.trans h.planned
  listed topology := (h'.listed topology).trans (h.listed topology)

/-- What is about the key is about none of the others. -/
theorem ne_some_of_not_mem {key? : Option Key} {other : Key} (hkey : key? = some key)
    (hother : other ∉ [key]) : key? ≠ some other := by
  rw [hkey]
  exact fun heq => hother (List.mem_singleton.2 (Option.some.inj heq).symm)

/-- A call about a key shows nothing of a snapshot. -/
theorem snapshotOf_called (topology : String) (done : History) {call : Call}
    (answer : call.Answer) (hkey : call.key? = some key) :
    snapshotOf topology (done ++ [⟨call, answer⟩]) = snapshotOf topology done :=
  snapshotOf_append (List.forall_mem_singleton.2 ⟨key, hkey⟩)

namespace Steps

theorem start (hbalanced : Balanced pass done) (h : standing pass done key = st) :
    Steps key pass done pass done st :=
  ⟨⟨hbalanced, fun _ _ => rfl, rfl, rfl, fun _ => rfl⟩, h⟩

theorem fail (h : Steps key pass done pass' done' st) {error : ResourceError}
    (hkey : error.key? = some key) :
    Steps key pass done (pass'.fail error) done' { st with errors := st.errors ++ [error] } where
  balanced action := by rw [changes_fail, h.balanced action]
  others other hother := by
    rw [← h.others other hother]
    simp only [standing, Pass.fail, naming_concat, if_neg (ne_some_of_not_mem hkey hother),
      List.append_nil]
  unnamed := by
    rw [← h.unnamed]
    simp [Accounting.unnamed, hkey]
  planned := h.planned
  listed := h.listed
  own := by
    rw [← h.own]
    simp only [standing, Pass.fail, naming_concat, if_pos hkey]

theorem markReady (h : Steps key pass done pass' done' st) :
    Steps key pass done (pass'.markReady key) done' { st with ready := true } where
  balanced := h.balanced
  others other hother := by
    rw [← h.others other hother]
    simp [standing, Pass.markReady, List.mem_singleton.not.1 hother]
  unnamed := h.unnamed
  planned := h.planned
  listed := h.listed
  own := by
    rw [← h.own]
    simp [standing, Pass.markReady]

theorem observe (h : Steps key pass done pass' done' st) (object : Resource) :
    Steps key pass done (pass'.observe key object) done' { st with live := some object } where
  balanced := h.balanced
  others other hother := by
    rw [← h.others other hother]
    simp [standing, Pass.observe, List.mem_singleton.not.1 hother]
  unnamed := h.unnamed
  planned := h.planned
  listed := h.listed
  own := by
    rw [← h.own]
    simp [standing, Pass.observe]

/-- A call about the key that changes nothing. -/
theorem called (h : Steps key pass done pass' done' st) (call : Call) (answer : call.Answer)
    (hkey : call.key? = some key) (hnone : ∀ action, call.changed? action answer = none) :
    Steps key pass done pass' (done' ++ [⟨call, answer⟩])
      { st with exchanges := st.exchanges ++ [⟨call, answer⟩] } where
  balanced action := by simp [h.balanced action, changed_concat, hnone action]
  others other hother := by
    rw [← h.others other hother]
    simp only [standing, about_concat, if_neg (ne_some_of_not_mem hkey hother), List.append_nil]
  unnamed := h.unnamed
  planned := h.planned
  listed topology := by rw [snapshotOf_called topology done' answer hkey, h.listed]
  own := by
    rw [← h.own]
    simp only [standing, about_concat, if_pos hkey]

/-- A call that has changed the object of the key, which the report lists. -/
theorem changed (h : Steps key pass done pass' done' st) {call : Call} {answer : call.Answer}
    {action : Action} {change : Change} (hkey : call.key? = some key)
    (hchange : change.key = key) (haction : ∀ other, call.changed? other answer =
      if other = action then some key else none) :
    Steps key pass done (pass'.record action change) (done' ++ [⟨call, answer⟩])
      { st with exchanges := st.exchanges ++ [⟨call, answer⟩] } where
  balanced other := by
    rw [changes_record, List.map_append, h.balanced other, changed_concat, haction other]
    split
    · simp [hchange]
    · rfl
  others other hother := by
    rw [← h.others other hother]
    simp only [standing, about_concat, if_neg (ne_some_of_not_mem hkey hother), List.append_nil,
      Pass.record_errors, Pass.record_live, Pass.record_ready]
  unnamed := by rw [Pass.record_errors, h.unnamed]
  planned := h.planned
  listed topology := by rw [snapshotOf_called topology done' answer hkey, h.listed]
  own := by
    rw [← h.own]
    simp only [standing, about_concat, if_pos hkey, Pass.record_errors, Pass.record_live,
      Pass.record_ready]

end Steps

/-! ## Applying and deleting one object -/

/-- Whatever is called. -/
abbrev anyCalls : Contract History := recording fun _ _ => True

/-- A planned object has fared in some way, and its key stands accordingly. -/
def Settled (topology : String) (live? : Option Resource) (p : PlannedObject)
    (st : Standing) : Prop :=
  ∃ error?, Fares topology p live? st.exchanges error? ∧ st.errors = error?.toList ∧
    (st.ready = true ↔ error? = none)

theorem settled_error {live? : Option Resource} {p : PlannedObject} {topology : String}
    {exchanges : History} {error : ResourceError}
    (h : Fares topology p live? exchanges (some error)) {live : Option Resource} :
    Settled topology live? p ⟨exchanges, [error], false, live⟩ :=
  ⟨some error, h, rfl, nofun, nofun⟩

theorem settled_ready {live? : Option Resource} {p : PlannedObject} {topology : String}
    {exchanges : History} (h : Fares topology p live? exchanges none) {live : Option Resource} :
    Settled topology live? p ⟨exchanges, [], true, live⟩ :=
  ⟨none, h, rfl, fun _ => rfl, fun _ => rfl⟩

/-- **Applying an object settles it**, if nothing has been done about its key. -/
theorem meets_applyObject {p : PlannedObject} {live? : Option Resource}
    (hbalanced : Balanced pass done) (hfresh : standing pass done p.key = .untouched live?) :
    (Pass.applyObject scope type? p pass).Meets anyCalls
      (fun pass' done' => ∃ st, Steps p.key pass done pass' done' st ∧
        Settled scope.topology live? p st) done := by
  have hstart : Steps p.key pass done pass done (.untouched live?) := .start hbalanced hfresh
  have hlive : pass.live.get? p.key = live? := congrArg Standing.live hfresh
  subst hlive
  refine Pass.meets_applyObject (fun dependency hmem _ => ?_) (fun _ hnone => ?_)
    (fun live _ hsome hdrift => ?_) fun live _ hsome hsame => ?_
  · exact ⟨_, hstart.fail rfl, settled_error (.blocked _ hmem)⟩
  · rw [hnone] at hstart ⊢
    refine Pass.meets_create_cases trivial ?_ ?_ ?_
    · rintro stored _ rfl
      refine ⟨_, ((hstart.changed rfl rfl fun other => ?_).observe stored).markReady,
        settled_ready (.created stored)⟩
      cases other <;> rfl
    · rintro message _ rfl
      have hexists := hstart.called (.create p.object) (.error (.alreadyExists message)) rfl
        fun action => by cases action <;> rfl
      have hread (answer : Except ClusterError Resource) :=
        hexists.called (.get p.key) answer rfl fun action => by cases action <;> rfl
      refine Pass.meets_adopt trivial ?_ ?_ ?_
      · rintro existing _ rfl hown
        exact ⟨_, ((hread (.ok existing)).observe existing).markReady,
          settled_ready (.adopted message hown)⟩
      · rintro existing _ rfl hforeign
        exact ⟨_, (hread (.ok existing)).fail rfl, settled_error (.taken message hforeign)⟩
      · rintro e _ rfl
        exact ⟨_, (hread (.error e)).fail rfl, settled_error (.unread message e)⟩
    · rintro e _ hother rfl
      have hfailed := hstart.called (.create p.object) (.error e) rfl
        fun action => by cases action <;> rfl
      exact ⟨_, hfailed.fail rfl, settled_error (.uncreated hother)⟩
  · rw [hsome] at hstart ⊢
    have hkey : (Call.replace (p.object.update live)).key? = some p.key :=
      congrArg some (Resource.update_key p.object live)
    have hfailed (e : ClusterError) := hstart.called (.replace (p.object.update live)) (.error e)
      hkey fun action => by cases action <;> rfl
    refine Pass.meets_replace_cases trivial ?_ ?_ ?_
    · rintro stored _ rfl
      refine ⟨_, ((hstart.changed hkey rfl fun other => ?_).observe stored).markReady,
        settled_ready (.replaced hdrift stored)⟩
      cases other with
      | update => exact hkey
      | create | delete => rfl
    · rintro message _ rfl
      exact ⟨_, (hfailed (.conflict message)).fail rfl, settled_error (.conflicting hdrift message)⟩
    · rintro e _ hother rfl
      exact ⟨_, (hfailed e).fail rfl, settled_error (.unwritten hdrift hother)⟩
  · rw [hsome] at hstart ⊢
    exact ⟨_, hstart.markReady, settled_ready (.unchanged hsame)⟩

/-- The object is gone, as the answer to its delete tells. -/
def Gone (answer : Except ClusterError Unit) : Prop :=
  answer = .ok () ∨ ∃ message, answer = .error (.notFound message)

/-- A key that was deleted stands by the answer. -/
def Struck (key : Key) (st : Standing) : Prop :=
  ∃ answer : Except ClusterError Unit, st.exchanges = [⟨.delete key, answer⟩] ∧
    (Gone answer ∧ st.errors = [] ∨
      ∃ e, answer = .error e ∧ ¬ Gone answer ∧ st.errors = [.api key .delete e])

/-- **Deleting an object strikes it**, if nothing has been done about its key. -/
theorem meets_delete {entry : Key × Resource} {live? : Option Resource}
    (hbalanced : Balanced pass done) (hfresh : standing pass done entry.1 = .untouched live?) :
    (Pass.delete scope entry pass).Meets anyCalls
      (fun pass' done' => ∃ st, Steps entry.1 pass done pass' done' st ∧ Struck entry.1 st)
      done := by
  have hstart : Steps entry.1 pass done pass done (.untouched live?) := .start hbalanced hfresh
  refine Pass.meets_delete_cases trivial ?_ ?_ ?_
  · rintro _ rfl
    refine ⟨_, hstart.changed rfl rfl fun other => ?_, .ok (), rfl, .inl ⟨.inl rfl, rfl⟩⟩
    cases other <;> rfl
  · rintro message _ rfl
    refine ⟨_, hstart.changed rfl rfl fun other => ?_, .error (.notFound message), rfl,
      .inl ⟨.inr ⟨message, rfl⟩, rfl⟩⟩
    cases other <;> rfl
  · rintro e _ hother rfl
    have hnone : ∀ action, (Call.delete entry.1).changed? action (.error e) = none := by
      intro action
      cases e with
      | notFound message => exact absurd rfl (hother message)
      | alreadyExists _ | conflict _ | api _ | client => cases action <;> rfl
    refine ⟨_, (hstart.called (.delete entry.1) (.error e) rfl hnone).fail rfl, .error e, rfl,
      .inr ⟨e, rfl, ?_, rfl⟩⟩
    rintro (hok | ⟨message, hgone⟩)
    · cases hok
    · exact hother message (Except.error.inj hgone)

/-- **One object after the other**, each under a key of its own: what each comes to stays. -/
theorem meets_forEach_works {ι : Type} {step : ι → Pass → Program Pass} (keyOf : ι → Key)
    (fresh : ι → Option Resource) (settles : ι → Standing → Prop) {items : List ι}
    (hnodup : (items.map keyOf).Nodup) (hbalanced : Balanced pass done)
    (hfresh : ∀ item ∈ items, standing pass done (keyOf item) = .untouched (fresh item))
    (hstep : ∀ item ∈ items, ∀ pass done, Balanced pass done →
      standing pass done (keyOf item) = .untouched (fresh item) →
        (step item pass).Meets anyCalls (fun pass' done' => ∃ st,
          Steps (keyOf item) pass done pass' done' st ∧ settles item st) done) :
    (forEach step items pass).Meets anyCalls
      (fun pass' done' => Works (items.map keyOf) pass done pass' done' ∧
        ∀ item ∈ items, settles item (standing pass' done' (keyOf item))) done := by
  -- Those that were done are settled, and those that are left stand as at the start.
  refine meets_forEach_before (fun before pass' done' =>
    Works (before.map keyOf) pass done pass' done' ∧
      ∀ item ∈ before, settles item (standing pass' done' (keyOf item))) ?_
    ⟨Works.refl hbalanced, fun _ hmem => (List.not_mem_nil hmem).elim⟩
  rintro before item rest pass' done' hsplit ⟨hworks, hsettled⟩
  subst hsplit
  have hother : ∀ earlier ∈ before, keyOf earlier ≠ keyOf item := fun earlier hmem =>
    ne_of_nodup_map hnodup hmem
  have hkey : keyOf item ∉ before.map keyOf := by
    intro hmem
    obtain ⟨earlier, hearlier, heq⟩ := List.mem_map.1 hmem
    exact hother earlier hearlier heq
  have hitem : item ∈ before ++ item :: rest := List.mem_append_right _ List.mem_cons_self
  have hstill := (hworks.others _ hkey).trans (hfresh item hitem)
  refine (hstep item hitem pass' done' hworks.balanced hstill).mono ?_
  rintro pass'' done'' ⟨st, hsteps, hst⟩
  rw [List.map_append]
  refine ⟨hworks.trans hsteps.toWorks, List.forall_mem_append.2 ⟨fun earlier hmem => ?_, ?_⟩⟩
  · rw [hsteps.others _ fun heq => hother earlier hmem (List.mem_singleton.1 heq)]
    exact hsettled earlier hmem
  · exact List.forall_mem_singleton.2 (hsteps.own ▸ hst)

/-! ## Applying groups -/

variable {snapshot : SortedMap Key Resource} {group : Group} {groups : List Group}

/-- The objects of a group are settled, unless the group was refused. -/
def Accounted (scope : Scope) (snapshot : SortedMap Key Resource) (group : Group)
    (standings : Key → Standing) : Prop :=
  match group.refusal? scope with
  | some _ => ∀ p ∈ group.objects, standings p.key = .untouched (snapshot.get? p.key)
  | none => ∀ p ∈ group.objects,
      Settled scope.topology (snapshot.get? p.key) p (standings p.key)

theorem Accounted.congr {standings standings' : Key → Standing}
    (h : Accounted scope snapshot group standings)
    (hsame : ∀ p ∈ group.objects, standings' p.key = standings p.key) :
    Accounted scope snapshot group standings' := by
  unfold Accounted at h ⊢
  split at h
  · exact fun p hp => (hsame p hp).trans (h p hp)
  · exact fun p hp => hsame p hp ▸ h p hp

/-- **The books after some groups.** -/
structure Books (scope : Scope) (snapshot : SortedMap Key Resource) (groups : List Group)
    (pass : Pass) (done : History) : Prop where
  listed : snapshotOf scope.topology done = snapshot
  balanced : Balanced pass done
  planned : pass.planned = Group.keysOf groups
  accounted : ∀ group ∈ groups, Accounted scope snapshot group (standing pass done)
  untouched : ∀ key, key ∉ Group.keysOf groups →
    standing pass done key = .untouched (snapshot.get? key)
  /-- Every group that was refused has one error. -/
  refusals : unnamed pass.report.errors = groups.filterMap (Group.refusal? scope)

/-- One more group, whose keys are its own. -/
theorem Books.extend (h : Books scope snapshot groups pass done)
    (hnodup : (Group.keysOf (groups ++ [group])).Nodup)
    (hlisted : snapshotOf scope.topology done' = snapshotOf scope.topology done)
    (hbalanced : Balanced pass' done')
    (hplanned : pass'.planned = pass.planned ++ group.keys)
    (hothers : ∀ key, key ∉ group.keys → standing pass' done' key = standing pass done key)
    (haccounted : Accounted scope snapshot group (standing pass' done'))
    (hrefusal : unnamed pass'.report.errors =
      unnamed pass.report.errors ++ (group.refusal? scope).toList) :
    Books scope snapshot (groups ++ [group]) pass' done' := by
  refine ⟨hlisted.trans h.listed, hbalanced, ?_, ?_, ?_, ?_⟩
  · rw [hplanned, h.planned]
    simp
  · refine List.forall_mem_append.2 ⟨fun other hother => ?_, List.forall_mem_singleton.2 haccounted⟩
    exact (h.accounted other hother).congr fun p hp =>
      hothers _ (Group.not_mem_keys hnodup (Group.mem_keysOf hother hp))
  · intro key hkey
    rw [Group.keysOf_append, Group.keysOf_singleton, List.mem_append, not_or] at hkey
    rw [hothers key hkey.2, h.untouched key hkey.1]
  · rw [hrefusal, h.refusals, List.filterMap_append]
    cases hgroup : group.refusal? scope <;> simp [hgroup]

/-- Nothing has been done about the objects of a group that comes next. -/
theorem Books.fresh (h : Books scope snapshot groups pass done)
    (hnodup : (Group.keysOf (groups ++ [group])).Nodup) {p : PlannedObject}
    (hp : p ∈ group.objects) :
    standing pass done p.key = .untouched (snapshot.get? p.key) :=
  h.untouched p.key fun hmem => Group.not_mem_keys hnodup hmem (List.mem_map_of_mem hp)

theorem meets_applyGroup (h : Books scope snapshot groups pass done)
    (hnodup : (Group.keysOf (groups ++ [group])).Nodup) :
    (Pass.applyGroup scope group.type? group.owner group.objects pass).Meets anyCalls
      (Books scope snapshot (groups ++ [group])) done := by
  cases hrefusal : group.refusal? scope with
  | some error =>
    rw [Pass.applyGroup_of_refusal pass hrefusal]
    have hkey := Group.key?_of_refusal hrefusal
    have hsame (key : Key) :
        standing ((pass.plan group.objects).fail error) done key = standing pass done key := by
      simp [standing, naming_concat, hkey, Pass.fail, Pass.plan]
    refine h.extend hnodup rfl (fun action => ?_) rfl (fun key _ => hsame key) ?_ ?_
    · rw [changes_fail]
      exact h.balanced action
    · simp only [Accounted, hrefusal]
      exact fun p hp => (hsame p.key).trans (h.fresh hnodup hp)
    · rw [hrefusal]
      simp [unnamed, Pass.plan, hkey]
  | none =>
    obtain ⟨order, horder, hgroup⟩ := Pass.exists_order_of_refusal_none hrefusal
    have hperm := PlannedObject.perm_of_applyOrder? horder
    have hkeys : (group.keys).Nodup := by
      rw [Group.keysOf_append, Group.keysOf_singleton] at hnodup
      exact hnodup.of_append_right
    have hplan : Balanced (pass.plan group.objects) done := h.balanced
    have hfresh : ∀ p ∈ order, standing (pass.plan group.objects) done p.key =
        .untouched (snapshot.get? p.key) := fun p hp => h.fresh hnodup (hperm.mem_iff.1 hp)
    have hloop := meets_forEach_works PlannedObject.key (fun p => snapshot.get? p.key)
      (fun p => Settled scope.topology (snapshot.get? p.key) p)
      ((hperm.map PlannedObject.key).nodup_iff.2 hkeys) hplan hfresh fun p _ pass done hbalanced =>
        @meets_applyObject scope group.type? pass done p _ hbalanced
    rw [hgroup pass]
    refine hloop.mono ?_
    rintro pass' done' ⟨hworks, hsettled⟩
    refine h.extend hnodup (hworks.listed _) hworks.balanced hworks.planned (fun key hkey => ?_)
      ?_ ?_
    · exact hworks.others key fun hmem => hkey ((hperm.map PlannedObject.key).mem_iff.1 hmem)
    · simp only [Accounted, hrefusal]
      exact fun p hp => hsettled p (hperm.mem_iff.2 hp)
    · rw [hrefusal, hworks.unnamed]
      simp [Pass.plan]

theorem meets_applyGroups (hnodup : (Group.keysOf groups).Nodup)
    (h : Books scope snapshot [] pass done) :
    (Pass.applyGroups scope groups pass).Meets anyCalls (Books scope snapshot groups) done := by
  refine meets_forEach_before (fun before => Books scope snapshot before)
    (fun before group rest pass done hsplit hbooks => meets_applyGroup hbooks ?_) h
  rw [hsplit, ← List.singleton_append, ← List.append_assoc, Group.keysOf_append] at hnodup
  exact hnodup.of_append_left

/-! ## Pruning -/

/-- **The books at the end of a pass.** -/
structure Closed (scope : Scope) (groups : List Group) (pass : Pass) (done : History) : Prop where
  balanced : Balanced pass done
  accounted : ∀ group ∈ groups,
    Accounted scope (snapshotOf scope.topology done) group (standing pass done)
  refusals : unnamed pass.report.errors = groups.filterMap (Group.refusal? scope)
  /-- About what nobody planned nothing was done, or it was deleted. -/
  others : ∀ key, key ∉ Group.keysOf groups →
    (∃ live?, standing pass done key = .untouched live?) ∨ Struck key (standing pass done key)

theorem meets_prune (h : Books scope snapshot groups pass done) :
    (Pass.prune scope pass).Meets anyCalls (Closed scope groups) done := by
  have hunplanned : ∀ entry ∈ pass.unwanted, entry.1 ∉ Group.keysOf groups := by
    intro entry hmem
    rw [← h.planned]
    exact (Pass.mem_unwanted.1 hmem).2
  have hloop := meets_forEach_works Prod.fst (fun entry => snapshot.get? entry.1)
    (fun entry => Struck entry.1) pass.nodup_unwanted h.balanced
    (fun entry hmem => h.untouched entry.1 (hunplanned entry hmem))
    fun entry _ pass done hbalanced => @meets_delete scope pass done entry _ hbalanced
  refine hloop.mono ?_
  rintro pass' done' ⟨hworks, hstruck⟩
  refine ⟨hworks.balanced, fun group hgroup => ?_, hworks.unnamed.trans h.refusals, ?_⟩
  · rw [hworks.listed, h.listed]
    refine (h.accounted group hgroup).congr fun p hp => hworks.others _ fun hmem => ?_
    obtain ⟨entry, hentry, heq⟩ := List.mem_map.1 hmem
    exact hunplanned entry hentry (heq ▸ Group.mem_keysOf hgroup hp)
  · intro key hkey
    by_cases hmem : key ∈ pass.unwanted.map Prod.fst
    · obtain ⟨entry, hentry, rfl⟩ := List.mem_map.1 hmem
      exact Or.inr (hstruck entry hentry)
    · exact Or.inl ⟨_, (hworks.others key hmem).trans (h.untouched key hkey)⟩

theorem books_start {lists : History} (h : Snapshot scope lists) :
    Books scope (snapshotOf scope.topology lists) []
      (Pass.start (snapshotOf scope.topology lists)) lists := by
  have hkey : ∀ exchange ∈ lists, exchange.1.key? = none := by
    intro exchange hmem
    obtain ⟨kind, -, hlist⟩ := h.exists_list hmem
    rw [hlist]
    rfl
  refine ⟨rfl, fun action => ?_, rfl, fun _ hmem => (List.not_mem_nil hmem).elim, fun key _ => ?_,
    rfl⟩
  · have hnone : changed action lists = [] := by
      refine List.filterMap_eq_nil_iff.2 fun exchange hmem => Option.eq_none_iff_forall_ne_some.2 ?_
      intro key hchanged
      have hsome := key?_of_changed hchanged
      rw [hkey exchange hmem] at hsome
      cases hsome
    rw [hnone]
    cases action <;> rfl
  · have hnone : about key lists = [] := by
      refine List.filter_eq_nil_iff.2 fun exchange hmem => ?_
      simp [hkey exchange hmem]
    simp only [standing, hnone]
    rfl

theorem meets_overGroups (hnodup : (Group.keysOf groups).Nodup) :
    (Pass.overGroups scope groups).Meets anyCalls
      (fun result done => ∀ pass, result = .ok pass → Closed scope groups pass done) [] := by
  refine Pass.meets_begin_recording (fun _ _ _ => trivial) (fun _ _ _ _ => nofun) ?_
  intro lists hlists
  have happly := meets_applyGroups hnodup (books_start hlists)
  refine meets_bind.2 (happly.mono fun pass done hbooks => ?_)
  refine (meets_prune hbooks).mono fun pass done hclosed => ?_
  rintro _ heq
  obtain rfl := Except.ok.inj heq
  exact hclosed

/-! ## What the books say -/

namespace Closed

/-- Where a key can stand at the end of a pass. -/
theorem cases_of (h : Closed scope groups pass done) (key : Key) :
    (∃ live?, standing pass done key = .untouched live?) ∨
      (∃ group ∈ groups, ∃ p ∈ group.objects, group.refusal? scope = none ∧ p.key = key ∧
        Settled scope.topology ((snapshotOf scope.topology done).get? key) p
          (standing pass done key)) ∨
      key ∉ Group.keysOf groups ∧ Struck key (standing pass done key) := by
  by_cases hkey : key ∈ Group.keysOf groups
  · obtain ⟨group, hgroup, hmem⟩ := List.mem_flatMap.1 hkey
    obtain ⟨p, hp, rfl⟩ := List.mem_map.1 hmem
    have haccounted := h.accounted group hgroup
    unfold Accounted at haccounted
    split at haccounted
    · exact Or.inl ⟨_, haccounted p hp⟩
    · rename_i hnone
      exact Or.inr (Or.inl ⟨group, hgroup, p, hp, hnone, rfl, haccounted p hp⟩)
  · exact (h.others key hkey).imp_right fun hstruck => Or.inr ⟨hkey, hstruck⟩

end Closed

/-- How often the report names a key, as far as its standing tells. -/
def Standing.named (st : Standing) : Nat :=
  (changed .create st.exchanges).length + (changed .update st.exchanges).length +
    (changed .delete st.exchanges).length + st.errors.length

theorem Settled.named_le {topology : String} {live? : Option Resource} {p : PlannedObject}
    (h : Settled topology live? p st) : st.named ≤ 1 := by
  obtain ⟨error?, hfares, herrors, -⟩ := h
  unfold Standing.named
  rw [herrors]
  generalize st.exchanges = exchanges at hfares
  -- Each way to fare is one change, or one error, or neither.
  cases hfares <;> first | exact Nat.le_refl 1 | exact Nat.zero_le 1

theorem Struck.named_le (h : Struck key st) : st.named ≤ 1 := by
  obtain ⟨answer, hexchanges, ⟨hgone, herrors⟩ | ⟨e, rfl, hleft, herrors⟩⟩ := h
  · unfold Standing.named
    rw [hexchanges, herrors]
    rcases hgone with rfl | ⟨message, rfl⟩ <;> exact Nat.le_refl 1
  · unfold Standing.named
    rw [hexchanges, herrors]
    cases e with
    | notFound message => exact absurd (.inr ⟨message, rfl⟩) hleft
    | alreadyExists _ | conflict _ | api _ | client => exact Nat.le_refl 1

theorem Closed.named_le (h : Closed scope groups pass done) (key : Key) :
    (standing pass done key).named ≤ 1 := by
  rcases h.cases_of key with ⟨live?, huntouched⟩ | ⟨_, _, _, _, _, _, hsettled⟩ | ⟨_, hstruck⟩
  · rw [huntouched]
    exact Nat.zero_le 1
  · exact hsettled.named_le
  · exact hstruck.named_le

theorem count_changed (action : Action) (done : History) (key : Key) :
    (changed action done).count key = (changed action (about key done)).length := by
  induction done using List.reverseRecOn with
  | nil => rfl
  | append_singleton done exchange ih =>
    rw [changed_concat, List.count_append, ih, about_concat]
    cases hchanged : exchange.1.changed? action exchange.2 with
    | none => split <;> simp [changed_concat, hchanged]
    | some other =>
      have hkey := key?_of_changed hchanged
      by_cases heq : other = key
      · simp [hkey, heq, changed_concat, hchanged]
      · simp [hkey, heq]

theorem count_filterMap_key? (errors : List ResourceError) (key : Key) :
    (errors.filterMap ResourceError.key?).count key = (naming key errors).length := by
  induction errors using List.reverseRecOn with
  | nil => rfl
  | append_singleton errors error ih =>
    rw [List.filterMap_append, List.count_append, ih, naming_concat]
    cases hkey : error.key? with
    | none => simp [hkey]
    | some other =>
      by_cases heq : other = key
      · simp [hkey, heq]
      · simp [hkey, heq]

/-- **No key is named twice** in the report. -/
theorem Closed.nodup (h : Closed scope groups pass done) :
    (pass.report.created.map Change.key ++ pass.report.updated.map Change.key ++
      pass.report.deleted.map Change.key ++
        pass.report.errors.filterMap ResourceError.key?).Nodup := by
  refine List.nodup_iff_count_le_one.2 fun key => ?_
  have hcreated := h.balanced .create
  have hupdated := h.balanced .update
  have hdeleted := h.balanced .delete
  simp only [PassReport.changes] at hcreated hupdated hdeleted
  rw [hcreated, hupdated, hdeleted]
  simp only [List.count_append, count_changed, count_filterMap_key?]
  exact h.named_le key

theorem Fares.not_delete {topology : String} {live? : Option Resource} {p : PlannedObject}
    {exchanges : History} {error? : Option ResourceError}
    (h : Fares topology p live? exchanges error?) {exchange : Exchange}
    (hmem : exchange ∈ exchanges) : exchange.1 ≠ .delete key := by
  cases h <;> simp at hmem <;> rcases hmem with rfl | rfl <;> exact nofun

namespace Closed

/-- What was deleted was struck. -/
theorem struck_of_mem (h : Closed scope groups pass done) {answer : Except ClusterError Unit}
    (hmem : (⟨.delete key, answer⟩ : Exchange) ∈ done) :
    (Gone answer ∧ naming key pass.report.errors = []) ∨
      ¬ Gone answer ∧ naming key pass.report.errors ≠ [] := by
  have habout : (⟨.delete key, answer⟩ : Exchange) ∈ (standing pass done key).exchanges :=
    List.mem_filter.2 ⟨hmem, decide_eq_true rfl⟩
  rcases h.cases_of key with ⟨live?, huntouched⟩ | ⟨_, _, p, _, _, _, _, hfares, -, -⟩ |
    ⟨-, given, hexchanges, houtcome⟩
  · rw [huntouched] at habout
    cases habout
  · exact absurd rfl (hfares.not_delete habout)
  · rw [hexchanges] at habout
    obtain rfl : answer = given := by
      cases List.mem_singleton.1 habout
      rfl
    rcases houtcome with hgone | ⟨e, -, hleft, herrors⟩
    · exact Or.inl hgone
    · refine Or.inr ⟨hleft, fun hnone => ?_⟩
      rw [show naming key pass.report.errors = _ from herrors] at hnone
      cases hnone

/-- The objects of a group that was refused are not in order. -/
theorem not_ready_of_refusal (h : Closed scope groups pass done) (hgroup : group ∈ groups)
    {error : ResourceError} (hrefusal : group.refusal? scope = some error) {p : PlannedObject}
    (hp : p ∈ group.objects) : p.key ∉ pass.ready := by
  have haccounted := h.accounted group hgroup
  simp only [Accounted, hrefusal] at haccounted
  have hready := congrArg Standing.ready (haccounted p hp)
  simpa [standing, Standing.untouched] using hready

/-- Every error is about an object that is not in order, or about one that could not be deleted. -/
theorem source_of_error (h : Closed scope groups pass done) {error : ResourceError}
    (hmem : error ∈ pass.report.errors) :
    (∃ group ∈ groups, ∃ p ∈ group.objects, p.key ∉ pass.ready) ∨
      ∃ key, ∃ answer : Except ClusterError Unit,
        (⟨.delete key, answer⟩ : Exchange) ∈ done ∧ ¬ Gone answer := by
  cases hkey : error.key? with
  | none =>
    have hunnamed : error ∈ unnamed pass.report.errors :=
      List.mem_filter.2 ⟨hmem, decide_eq_true hkey⟩
    rw [h.refusals] at hunnamed
    obtain ⟨group, hgroup, hrefusal⟩ := List.mem_filterMap.1 hunnamed
    obtain ⟨p, hp⟩ := Group.exists_mem_of_refusal hrefusal
    exact Or.inl ⟨group, hgroup, p, hp, h.not_ready_of_refusal hgroup hrefusal hp⟩
  | some key =>
    have hnamed : error ∈ (standing pass done key).errors :=
      List.mem_filter.2 ⟨hmem, decide_eq_true hkey⟩
    rcases h.cases_of key with ⟨live?, huntouched⟩ |
      ⟨group, hgroup, p, hp, -, rfl, error?, -, herrors, hready⟩ |
      ⟨-, answer, hexchanges, ⟨-, herrors⟩ | ⟨e, -, hleft, -⟩⟩
    · rw [huntouched] at hnamed
      cases hnamed
    · refine Or.inl ⟨group, hgroup, p, hp, fun hmem => ?_⟩
      have hnone := hready.1 (by simpa [standing] using hmem)
      rw [herrors, hnone] at hnamed
      cases hnamed
    · rw [herrors] at hnamed
      cases hnamed
    · have hcalled : (⟨.delete key, answer⟩ : Exchange) ∈ about key done := by
        rw [show about key done = _ from hexchanges]
        exact List.mem_cons_self
      exact Or.inr ⟨key, answer, (List.mem_filter.1 hcalled).1, hleft⟩

/-- **A report is clean exactly if all is in order**: every planned object is, and everything that
was to be deleted is gone. -/
theorem isClean_iff (h : Closed scope groups pass done) :
    pass.report.isClean = true ↔
      (∀ group ∈ groups, ∀ p ∈ group.objects, p.key ∈ pass.ready) ∧
        ∀ key (answer : Except ClusterError Unit),
          (⟨.delete key, answer⟩ : Exchange) ∈ done → Gone answer := by
  rw [PassReport.isClean, List.isEmpty_iff]
  constructor
  · intro hclean
    refine ⟨fun group hgroup p hp => ?_, fun key answer hmem => ?_⟩
    · have haccounted := h.accounted group hgroup
      have hrefusals := h.refusals
      rw [hclean] at hrefusals
      have hnone := List.filterMap_eq_nil_iff.1 hrefusals.symm group hgroup
      simp only [Accounted, hnone] at haccounted
      obtain ⟨error?, -, herrors, hready⟩ := haccounted p hp
      have hnamed : naming p.key [] = error?.toList := hclean ▸ herrors
      have hcontains := hready.2 (Option.toList_eq_nil_iff.1 hnamed.symm)
      simpa [standing] using hcontains
    · rcases h.struck_of_mem hmem with ⟨hgone, -⟩ | ⟨-, herrors⟩
      · exact hgone
      · rw [hclean] at herrors
        exact absurd rfl herrors
  · rintro ⟨hready, hgone⟩
    refine List.eq_nil_iff_forall_not_mem.2 fun error hmem => ?_
    rcases h.source_of_error hmem with
      ⟨group, hgroup, p, hp, hmissing⟩ | ⟨key, answer, hcalled, hleft⟩
    · exact hmissing (hready group hgroup p hp)
    · exact hleft (hgone key answer hcalled)

end Closed

/-! ## Reports -/

variable {program : Program (Except PassError PassReport)} {report : PassReport}

/-- **An exact account** of a pass that has made some calls and has some keys in order at its
end. -/
structure ExactAccount (scope : Scope) (groups : List Group) (done : History) (ready : List Key)
    (report : PassReport) : Prop where
  /-- What was created, updated and deleted is listed, in the order of the calls. -/
  changes : ∀ action, (report.changes action).map Change.key = changed action done
  /-- A planned object is in order, or has exactly one error. -/
  applied : ∀ group ∈ groups, group.refusal? scope = none → ∀ p ∈ group.objects, ∃ error?,
    Fares scope.topology p ((snapshotOf scope.topology done).get? p.key) (about p.key done) error? ∧
      naming p.key report.errors = error?.toList ∧ (p.key ∈ ready ↔ error? = none)
  /-- Nothing is done about the objects of a group that is refused. -/
  refused : ∀ group ∈ groups, ∀ error, group.refusal? scope = some error → ∀ p ∈ group.objects,
    about p.key done = [] ∧ naming p.key report.errors = [] ∧ p.key ∉ ready
  /-- Every group that is refused has exactly one error, which names its owner. -/
  refusals : unnamed report.errors = groups.filterMap (Group.refusal? scope)
  /-- No key is named twice. -/
  nodup : (report.created.map Change.key ++ report.updated.map Change.key ++
    report.deleted.map Change.key ++ report.errors.filterMap ResourceError.key?).Nodup
  clean : report.isClean = true ↔
    (∀ group ∈ groups, ∀ p ∈ group.objects, p.key ∈ ready) ∧
      ∀ key (answer : Except ClusterError Unit),
        (⟨.delete key, answer⟩ : Exchange) ∈ done → Gone answer

/-- **The report of a pass is an exact account of it**, whatever its calls are answered with. -/
theorem report_is_exact (h : Reconciles scope groups program)
    (hkeys : (Group.keysOf groups).Nodup) (hyields : program.Yields done (.ok report)) :
    ∃ pass nodes, (Pass.overGroups scope groups).Yields done (.ok pass) ∧
      report = { pass.report with nodes } ∧
      ExactAccount scope groups done pass.ready report := by
  obtain ⟨pass, nodes, hpass, rfl⟩ := h.exists_pass hyields
  have hclosed : Closed scope groups pass done :=
    (meets_overGroups hkeys).post_of_yields hpass pass rfl
  refine ⟨pass, nodes, hpass, rfl, ?_⟩
  constructor
  case changes =>
    intro action
    rw [← hclosed.balanced action]
    cases action <;> rfl
  case applied =>
    intro group hgroup hrefusal p hp
    have haccounted := hclosed.accounted group hgroup
    simp only [Accounted, hrefusal] at haccounted
    obtain ⟨error?, hfares, herrors, hready⟩ := haccounted p hp
    refine ⟨error?, hfares, herrors, Iff.trans ?_ hready⟩
    simp [standing]
  case refused =>
    intro group hgroup error hrefusal p hp
    have haccounted := hclosed.accounted group hgroup
    simp only [Accounted, hrefusal] at haccounted
    have hstanding := haccounted p hp
    exact ⟨congrArg Standing.exchanges hstanding, congrArg Standing.errors hstanding,
      hclosed.not_ready_of_refusal hgroup hrefusal hp⟩
  case refusals => exact hclosed.refusals
  case nodup => exact hclosed.nodup
  case clean => exact hclosed.isClean_iff

/-- A group that is refused, a Service that cannot be created, and what is left over: two errors,
and two deletes. -/
theorem leftover_report_is_exact : ∃ done ready report,
    (reconcileWorkloads "lab" "sim" Pruning.refusedPlans).Yields done (.ok report) ∧
      ExactAccount (.workloads "lab" "sim") (NodePlan.groups Pruning.refusedPlans) done ready
        report ∧
      report.deleted.map Change.key = [⟨.service, "lab-old"⟩, ⟨.configMap, "lab-gone"⟩] ∧
      report.errors = [.unsupportedKind "r1" .networkPolicy,
        .api ⟨.service, "lab-r2"⟩ .create .client] := by
  obtain ⟨report, hyields, hcheck⟩ := @Pruning.leftover_yields (fun report =>
    report.deleted.map Change.key = [⟨.service, "lab-old"⟩, ⟨.configMap, "lab-gone"⟩] &&
      report.errors = [.unsupportedKind "r1" .networkPolicy,
        .api ⟨.service, "lab-r2"⟩ .create .client]) (by decide +kernel)
  obtain ⟨pass, -, -, -, hexact⟩ := report_is_exact
    (.workloads "lab" "sim" Pruning.refusedPlans) (by decide +kernel) hyields
  obtain ⟨hdeleted, herrors⟩ := Bool.and_eq_true_iff.1 hcheck
  exact ⟨_, pass.ready, report, hyields, hexact, of_decide_eq_true hdeleted,
    of_decide_eq_true herrors⟩

end Accounting

end NetLab
