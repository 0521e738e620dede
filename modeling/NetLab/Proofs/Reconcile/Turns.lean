import NetLab.Proofs.Reconcile.Accounting
import NetLab.Proofs.Reconcile.Knowledge

/-!
# Turns

The groups of a pass take turns, and so do the objects of a group, in an order in which each comes
after those of the group that it depends on.  At its turn an object is applied exactly if all that it
depends on is there (`ObjectTurn`): then it fares as its own answers tell, and otherwise nothing is
called for it and one error names the first dependency that is missing.  After the last group has had
its turn (`GroupTurn`), objects are deleted one by one (`DeleteTurn`).

What a pass calls, and when, follows (`allows`): it calls for an object only when that is due,
replaces only what is there, and creates only what is not.
-/

namespace NetLab

open Cluster Kube Program

namespace Gating

/-! ## Turns -/

/-- **One item after the other.**  The turn of each is a law about what happened before it, its own
calls, and the errors that it leaves. -/
inductive InTurn {ι : Type} (Turn : History → ι → History → List ResourceError → Prop)
    (done : History) : List ι → History → List ResourceError → Prop where
  | nil : InTurn Turn done [] [] []
  | snoc {items : List ι} {calls : History} {errors : List ResourceError} {item : ι}
      {own : History} {left : List ResourceError} (hbefore : InTurn Turn done items calls errors)
      (hturn : Turn (done ++ calls) item own left) :
      InTurn Turn done (items ++ [item]) (calls ++ own) (errors ++ left)

namespace InTurn

variable {ι : Type} {Turn : History → ι → History → List ResourceError → Prop}
  {done calls : History} {items : List ι} {errors : List ResourceError}

/-- Every item has its turn. -/
theorem exists_turn (h : InTurn Turn done items calls errors) {item : ι} (hmem : item ∈ items) :
    ∃ before own after left, calls = before ++ own ++ after ∧ (∀ error ∈ left, error ∈ errors) ∧
      Turn (done ++ before) item own left := by
  induction h with
  | nil => cases hmem
  | snoc hbefore hturn ih =>
    rcases List.mem_append.1 hmem with hearlier | hlast
    · obtain ⟨before, own, after, left, rfl, hleft, hitem⟩ := ih hearlier
      exact ⟨before, own, after ++ _, left, List.append_assoc _ _ _,
        fun error herror => List.mem_append_left _ (hleft error herror), hitem⟩
    · obtain rfl := List.mem_singleton.1 hlast
      exact ⟨_, _, [], _, (List.append_nil _).symm, fun _ => List.mem_append_right _, hturn⟩

end InTurn

/-- **An object is held back** by the first dependency that is missing. -/
def HeldBack (topology : String) (done : History) (p : PlannedObject) (dependency : Key) : Prop :=
  ∃ earlier later, p.dependencies = earlier ++ dependency :: later ∧
    (∀ key ∈ earlier, There topology done key) ∧ ¬ There topology done dependency

/-- **The turn of an object.** -/
inductive ObjectTurn (topology : String) (done : History) (p : PlannedObject) :
    History → List ResourceError → Prop where
  | blocked {dependency : Key} (hheld : HeldBack topology done p dependency) :
      ObjectTurn topology done p [] [.dependencyNotReady p.key dependency]
  | applied {calls : History} {error? : Option ResourceError}
      (hdependencies : ∀ key ∈ p.dependencies, There topology done key)
      (hfares : Accounting.Fares topology p (known topology done p.key) calls error?)
      (hother : ∀ dependency, error? ≠ some (.dependencyNotReady p.key dependency)) :
      ObjectTurn topology done p calls error?.toList

/-- **The turn of a group.** -/
inductive GroupTurn (scope : Scope) (done : History) (group : Group) :
    History → List ResourceError → Prop where
  | refused {error : ResourceError} (hrefusal : group.refusal? scope = some error) :
      GroupTurn scope done group [] [error]
  | applied {order : List PlannedObject} {calls : History} {errors : List ResourceError}
      (hfine : group.refusal? scope = none) (hperm : order.Perm group.objects)
      (horder : PlannedObject.InOrder group.keys [] order)
      (hturns : InTurn (ObjectTurn scope.topology) done order calls errors) :
      GroupTurn scope done group calls errors

/-- The delete of an object. -/
def DeleteTurn (entry : Key × Resource) (calls : History) (errors : List ResourceError) : Prop :=
  (∃ answer : Except ClusterError Unit, calls = [⟨.delete entry.1, answer⟩]) ∧
    ∀ error ∈ errors, ∃ cause, error = .api entry.1 .delete cause

variable {scope : Scope} {groups : List Group} {topology : String} {type? : Option WorkloadType}
  {pass pass' : Pass} {done done' : History}

/-! ## What is called when -/

/-- The object of a key may be called for: an object that is planned under it has all that it
depends on. -/
def Due (scope : Scope) (groups : List Group) (done : History) (key : Key) : Prop :=
  ∃ group ∈ groups, group.refusal? scope = none ∧ ∃ p ∈ group.objects, p.key = key ∧
    ∀ dependency ∈ p.dependencies, There scope.topology done dependency

/-- **What a pass calls for and when**: what is due.  It replaces what is there, and creates, or
reads after that, what is not. -/
def allows (scope : Scope) (groups : List Group) (done : History) : Call → Prop
  | .list _ _ | .delete _ => True
  | .get key => Due scope groups done key ∧ ¬ There scope.topology done key
  | .create object => Due scope groups done object.key ∧ ¬ There scope.topology done object.key
  | .replace object => Due scope groups done object.key ∧ There scope.topology done object.key

/-- What is due stays so. -/
theorem Due.mono {key : Key} (h : Due scope groups done key)
    (hsub : ∀ exchange ∈ done, exchange ∈ done') : Due scope groups done' key := by
  obtain ⟨group, hgroup, hfine, p, hp, hkey, hdependencies⟩ := h
  exact ⟨group, hgroup, hfine, p, hp, hkey, fun dependency hmem =>
    (hdependencies dependency hmem).mono hsub⟩

/-- What comes of a part of a pass: it knows what it has called, and its calls and errors keep some
law. -/
structure Turned (topology : String) (law : History → List ResourceError → Prop) (pass : Pass)
    (done : History) (pass' : Pass) (done' : History) : Prop where
  tracks : Tracks topology pass' done'
  turn : ∃ calls errors, done' = done ++ calls ∧
    pass'.report.errors = pass.report.errors ++ errors ∧ law calls errors

/-- **A loop of turns.** -/
theorem meets_forEach {ι : Type} {step : ι → Pass → Program Pass} {items : List ι}
    {Turn : History → ι → History → List ResourceError → Prop}
    {contract : History → Call → Prop} (h : Tracks topology pass done)
    (hstep : ∀ item ∈ items, ∀ pass done, Tracks topology pass done →
      (step item pass).Meets (recording contract) (Turned topology (Turn done item) pass done)
        done) :
    (forEach step items pass).Meets (recording contract)
      (Turned topology (InTurn Turn done items) pass done) done := by
  refine meets_forEach_before (fun before => Turned topology (InTurn Turn done before) pass done)
    ?_ ⟨h, [], [], (List.append_nil _).symm, (List.append_nil _).symm, .nil⟩
  rintro before item rest pass' _ hsplit ⟨htracks, calls, errors, rfl, herrors, hturns⟩
  have hmem : item ∈ items := hsplit ▸ List.mem_append_right _ List.mem_cons_self
  refine (hstep item hmem pass' _ htracks).mono ?_
  rintro pass'' _ ⟨htracks', own, left, rfl, hleft, hturn⟩
  refine ⟨htracks', calls ++ own, errors ++ left, List.append_assoc _ _ _, ?_, hturns.snoc hturn⟩
  rw [hleft, herrors, List.append_assoc]

/-- The turn of an object that is applied, given how it fares. -/
theorem Turned.applied {p : PlannedObject} {live? : Option Resource} {calls : History}
    {error? : Option ResourceError} (hthere : ∀ key ∈ p.dependencies, There topology done key)
    (hknown : known topology done p.key = live?)
    (hfares : Accounting.Fares topology p live? calls error?)
    (hother : ∀ dependency, error? ≠ some (.dependencyNotReady p.key dependency))
    (htracks : Tracks topology pass' (done ++ calls))
    (herrors : pass'.report.errors = pass.report.errors ++ error?.toList) :
    Turned topology (ObjectTurn topology done p) pass done pass' (done ++ calls) :=
  ⟨htracks, calls, error?.toList, rfl, herrors, .applied hthere (hknown ▸ hfares) hother⟩

theorem meets_create {p : PlannedObject} (h : Tracks scope.topology pass done)
    (hdue : Due scope groups done p.key)
    (hthere : ∀ key ∈ p.dependencies, There scope.topology done key)
    (hnone : known scope.topology done p.key = none) :
    (Pass.create scope type? p.object pass).Meets (recording (allows scope groups))
      (Turned scope.topology (ObjectTurn scope.topology done p) pass done) done := by
  have hfailed (e : ClusterError) :
      Tracks scope.topology pass (done ++ [⟨.create p.object, .error e⟩]) := h.silent _ fun _ => rfl
  refine Pass.meets_create_cases ⟨hdue, not_there_iff.2 hnone⟩ ?_ ?_ ?_
  · rintro stored _ rfl
    have hcreated := (h.record .create (Pass.change scope type? p.key)).observe p.key stored
      ⟨.create p.object, .ok stored⟩ fun _ => rfl
    exact .applied hthere hnone (.created stored) nofun hcreated (List.append_nil _).symm
  · rintro message _ rfl
    have hunread : ¬ There scope.topology
        (done ++ [⟨.create p.object, .error (.alreadyExists message)⟩]) p.key := by
      rw [not_there_iff, known_concat, hnone]
      rfl
    refine Pass.meets_adopt ⟨hdue.mono fun _ => List.mem_append_left _, hunread⟩ ?_ ?_ ?_
    · rintro existing _ rfl hown
      have hadopted := (hfailed (.alreadyExists message)).observe p.key existing
        ⟨.get p.key, .ok existing⟩ fun other => by simp [Call.establishes, hown]
      rw [List.append_assoc] at hadopted ⊢
      exact .applied hthere hnone (.adopted message hown) nofun hadopted (List.append_nil _).symm
    · rintro existing _ rfl hforeign
      have hleft := (hfailed (.alreadyExists message)).silent ⟨.get p.key, .ok existing⟩
        fun other => by simp [Call.establishes, hforeign]
      rw [List.append_assoc] at hleft ⊢
      exact .applied hthere hnone (.taken message hforeign) nofun (hleft.fail _) rfl
    · rintro e _ rfl
      have hleft := (hfailed (.alreadyExists message)).silent ⟨.get p.key, .error e⟩ fun _ => rfl
      rw [List.append_assoc] at hleft ⊢
      exact .applied hthere hnone (.unread message e) nofun (hleft.fail _) rfl
  · rintro e _ hother rfl
    exact .applied hthere hnone (.uncreated hother) nofun ((hfailed e).fail _) rfl

theorem meets_replace {p : PlannedObject} {live : Resource} (h : Tracks scope.topology pass done)
    (hdue : Due scope groups done p.key)
    (hthere : ∀ key ∈ p.dependencies, There scope.topology done key)
    (hsome : known scope.topology done p.key = some live)
    (hdrift : p.object.needsUpdate live = true) :
    (Pass.replace scope type? p.object live pass).Meets (recording (allows scope groups))
      (Turned scope.topology (ObjectTurn scope.topology done p) pass done) done := by
  have hkey : (p.object.update live).key = p.key := Resource.update_key p.object live
  have hfailed (e : ClusterError) :
      Tracks scope.topology pass (done ++ [⟨.replace (p.object.update live), .error e⟩]) :=
    h.silent _ fun _ => rfl
  refine Pass.meets_replace_cases ⟨hkey ▸ hdue, hkey ▸ there_iff.2 ⟨live, hsome⟩⟩ ?_ ?_ ?_
  · rintro stored _ rfl
    have hreplaced := (h.record .update (Pass.change scope type? p.key)).observe p.key stored
      ⟨.replace (p.object.update live), .ok stored⟩ fun other => by rw [Call.establishes, hkey]
    exact .applied hthere hsome (.replaced hdrift stored) nofun hreplaced
      (List.append_nil _).symm
  · rintro message _ rfl
    exact .applied hthere hsome (.conflicting hdrift message) nofun ((hfailed _).fail _) rfl
  · rintro e _ hother rfl
    exact .applied hthere hsome (.unwritten hdrift hother) nofun ((hfailed e).fail _) rfl

/-- **Applying an object is its turn.** -/
theorem meets_applyObject {group : Group} {p : PlannedObject} (h : Tracks scope.topology pass done)
    (hgroup : group ∈ groups) (hfine : group.refusal? scope = none) (hp : p ∈ group.objects) :
    (Pass.applyObject scope type? p pass).Meets (recording (allows scope groups))
      (Turned scope.topology (ObjectTurn scope.topology done p) pass done) done := by
  have hthere (hexists : ∀ key ∈ p.dependencies, pass.exists? key = true) :
      ∀ key ∈ p.dependencies, There scope.topology done key :=
    fun key hkey => h.exists?_iff.1 (hexists key hkey)
  have hdue (hexists : ∀ key ∈ p.dependencies, pass.exists? key = true) :
      Due scope groups done p.key := ⟨group, hgroup, hfine, p, hp, rfl, hthere hexists⟩
  refine Pass.meets_applyObject_first (fun earlier key later hsplit hearlier hmissing => ?_)
    (fun hexists hnone => ?_) (fun live hexists hsome hdrift => ?_) fun live hexists hsome hsame => ?_
  · refine ⟨h.fail _, [], _, (List.append_nil _).symm, rfl, .blocked ⟨earlier, later, hsplit, ?_, ?_⟩⟩
    · exact fun other hother => h.exists?_iff.1 (hearlier other hother)
    · exact h.exists?_eq_false_iff.1 hmissing
  · exact meets_create h (hdue hexists) (hthere hexists) ((h.live p.key).symm.trans hnone)
  · exact meets_replace h (hdue hexists) (hthere hexists) ((h.live p.key).symm.trans hsome) hdrift
  · have hknown : known scope.topology done p.key = some live := (h.live p.key).symm.trans hsome
    have hready := h.markReady (there_iff.2 ⟨live, hknown⟩)
    have hturn : ObjectTurn scope.topology done p [] (none : Option ResourceError).toList :=
      .applied (hthere hexists) (hknown ▸ .unchanged hsame) nofun
    exact ⟨hready, [], [], (List.append_nil _).symm, (List.append_nil _).symm, hturn⟩

/-- **Applying a group is its turn.** -/
theorem meets_applyGroup {group : Group} (h : Tracks scope.topology pass done)
    (hgroup : group ∈ groups) :
    (Pass.applyGroup scope group.type? group.owner group.objects pass).Meets
      (recording (allows scope groups))
      (Turned scope.topology (GroupTurn scope done group) pass done) done := by
  cases hrefusal : group.refusal? scope with
  | some error =>
    rw [Pass.applyGroup_of_refusal pass hrefusal]
    exact ⟨h.congr rfl rfl, [], [error], (List.append_nil _).symm, rfl, .refused hrefusal⟩
  | none =>
    obtain ⟨order, horder, hgroupEq⟩ := Pass.exists_order_of_refusal_none hrefusal
    have hperm := PlannedObject.perm_of_applyOrder? horder
    have hplan : Tracks scope.topology (pass.plan group.objects) done := h.congr rfl rfl
    have hturned : (forEach (Pass.applyObject scope group.type?) order
        (pass.plan group.objects)).Meets (recording (allows scope groups))
        (Turned scope.topology (InTurn (ObjectTurn scope.topology) done order)
          (pass.plan group.objects) done) done :=
      meets_forEach hplan fun p hp pass done htracks =>
        meets_applyObject htracks hgroup hrefusal (hperm.mem_iff.1 hp)
    rw [hgroupEq pass]
    refine hturned.mono ?_
    rintro pass' done' ⟨htracks, calls, errors, hdone, herrors, hturns⟩
    exact ⟨htracks, calls, errors, hdone, herrors,
      .applied hrefusal hperm (PlannedObject.inOrder_of_applyOrder? horder) hturns⟩

theorem meets_delete {entry : Key × Resource} (h : Tracks scope.topology pass done) :
    (Pass.delete scope entry pass).Meets (recording (allows scope groups))
      (Turned scope.topology (DeleteTurn entry) pass done) done := by
  have hcalled (answer : Except ClusterError Unit) :
      Tracks scope.topology pass (done ++ [⟨.delete entry.1, answer⟩]) := h.silent _ fun _ => rfl
  have hdeleted (answer : Except ClusterError Unit) (change : Change) :
      Turned scope.topology (DeleteTurn entry) pass done (pass.record .delete change)
        (done ++ [⟨.delete entry.1, answer⟩]) :=
    ⟨(hcalled answer).record _ _, _, [], rfl, (List.append_nil _).symm, ⟨answer, rfl⟩, nofun⟩
  refine Pass.meets_delete trivial ?_ ?_ ?_
  · rintro _ rfl
    exact hdeleted (.ok ()) _
  · rintro message _ rfl
    exact hdeleted (.error (.notFound message)) _
  · rintro e _ rfl
    exact ⟨(hcalled (.error e)).fail _, _, _, rfl, rfl, ⟨.error e, rfl⟩,
      List.forall_mem_singleton.2 ⟨e, rfl⟩⟩

/-! ## Passes -/

/-- **How a pass goes**: it lists its kinds, each group has its turn, and then it deletes. -/
structure Turns (scope : Scope) (groups : List Group) (lists applied pruned : History)
    (own left : List ResourceError) : Prop where
  snapshot : Snapshot scope lists
  groups : InTurn (GroupTurn scope) lists groups applied own
  deletes : ∃ entries, InTurn (fun _ => DeleteTurn) (lists ++ applied) entries pruned left

/-- What comes of a pass over some groups. -/
def Ends (scope : Scope) (groups : List Group) (result : Except PassError Pass) (done : History) :
    Prop :=
  ∀ pass, result = .ok pass → Tracks scope.topology pass done ∧
    ∃ lists applied pruned own left, done = lists ++ applied ++ pruned ∧
      pass.report.errors = own ++ left ∧ Turns scope groups lists applied pruned own left

theorem meets_overGroups (scope : Scope) (groups : List Group) :
    (Pass.overGroups scope groups).Meets (recording (allows scope groups)) (Ends scope groups)
      [] := by
  refine Pass.meets_begin_recording (fun _ _ _ => trivial) (fun _ _ _ _ => nofun) ?_
  intro lists hsnapshot
  have happlied : (Pass.applyGroups scope groups
      (Pass.start (snapshotOf scope.topology lists))).Meets (recording (allows scope groups))
      (Turned scope.topology (InTurn (GroupTurn scope) lists groups)
        (Pass.start (snapshotOf scope.topology lists)) lists) lists :=
    meets_forEach (tracks_start hsnapshot) fun group hgroup pass done htracks =>
      meets_applyGroup htracks hgroup
  refine meets_bind.2 (happlied.mono ?_)
  rintro pass _ ⟨htracks, applied, own, rfl, herrors, hgroups⟩
  have hpruned : (Pass.prune scope pass).Meets (recording (allows scope groups))
      (Turned scope.topology (InTurn (fun _ => DeleteTurn) (lists ++ applied) pass.unwanted) pass
        (lists ++ applied)) (lists ++ applied) :=
    meets_forEach htracks fun entry _ pass done htracks => meets_delete htracks
  refine hpruned.mono ?_
  rintro pass' _ ⟨htracks', pruned, left, rfl, hleft, hdeletes⟩ _ heq
  obtain rfl := Except.ok.inj heq
  refine ⟨htracks', lists, applied, pruned, own, left, rfl, ?_, hsnapshot, hgroups, _, hdeletes⟩
  rw [hleft, herrors]
  rfl

namespace Turns

variable {lists applied pruned : History} {own left : List ResourceError} {group : Group}
  {p : PlannedObject} {key : Key}

/-- Every object of a group that is not refused has its turn. -/
theorem exists_turn (h : Turns scope groups lists applied pruned own left) (hgroup : group ∈ groups)
    (hfine : group.refusal? scope = none) (hp : p ∈ group.objects) :
    ∃ before calls after errors, applied = before ++ calls ++ after ∧
      (∀ error ∈ errors, error ∈ own) ∧
      ObjectTurn scope.topology (lists ++ before) p calls errors := by
  obtain ⟨before, _, after, errors, rfl, herrors, hturn⟩ := h.groups.exists_turn hgroup
  cases hturn with
  | refused hrefusal => cases hfine.symm.trans hrefusal
  | applied _ hperm _ hturns =>
    obtain ⟨before', calls, after', errors', rfl, herrors', hobject⟩ :=
      hturns.exists_turn (hperm.mem_iff.2 hp)
    refine ⟨before ++ before', calls, after' ++ after, errors', by simp,
      fun error hmem => herrors error (herrors' error hmem), ?_⟩
    rwa [← List.append_assoc]

end Turns

end Gating

end NetLab
