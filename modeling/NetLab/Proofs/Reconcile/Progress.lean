import Mathlib.Data.List.Nodup
import NetLab.Proofs.Reconcile.Groups
import NetLab.Proofs.Reconcile.Mirror
import NetLab.Proofs.Reconcile.Order

/-!
# How a pass puts things in place

A pass against a faithful server, without other writers, brings the objects of its topology to what
was planned, whatever was in the namespace before, if the planned objects have keys of their own:
`InPlace` is what a clean pass reaches (`Reconciles.meets_inPlace`).  Once everything is in place,
the next pass writes nothing (`Reconciles.meets_of_inPlace`).

The invariant of the apply phase is `Progress`: the pass mirrors the store, and unless an error was
recorded all objects that were applied so far are in sync.  Objects applied later do not undo this,
because the planned keys are pairwise distinct.  `Pruning` carries it through the deletions.
-/

namespace NetLab

open Cluster Kube Program

namespace Group

/-- **Groups that a pass can carry out.** -/
structure Fit (scope : Scope) (groups : List Group) : Prop where
  accepted : ∀ group ∈ groups, group.refusal? scope = none
  kinds : ∀ planned ∈ objectsOf groups, planned.object.kind ∈ scope.kinds
  owned : ∀ planned ∈ objectsOf groups, planned.object.ownedBy scope.topology = true
  closed : ∀ group ∈ groups, ∀ planned ∈ group.objects, ∀ key ∈ planned.dependencies,
    key ∈ group.keys

end Group

namespace Convergence

variable {scope : Scope} {groups : List Group} {server : Server} {done : List PlannedObject}
  {calm : Prop} {keys : List Key} {pass : Pass} {s t : Store} {planned : PlannedObject}

/-- The topology has an object under the key of the planned one, and it has not drifted. -/
def InSync (topology : String) (planned : PlannedObject) (s : Store) : Prop :=
  ∃ object, s.get? planned.key = some object ∧ object.ownedBy topology = true ∧
    planned.object.needsUpdate object = false

/-- **What was planned is in place**: nothing has drifted, and the topology has nothing else. -/
structure InPlace (scope : Scope) (groups : List Group) (s : Store) : Prop where
  inSync : ∀ planned ∈ Group.objectsOf groups, InSync scope.topology planned s
  nothingElse : ∀ object ∈ s, object.kind ∈ scope.kinds →
    object.ownedBy scope.topology = true → object.key ∈ Group.keysOf groups

/-! ## Applying -/

/-- **How far a pass has come** when the objects of `done` were applied.  It is `calm` if there is
nothing that can go wrong. -/
structure Progress (scope : Scope) (groups : List Group) (calm : Prop) (keys : List Key)
    (done : List PlannedObject) (pass : Pass) (s : Store) : Prop where
  planned : pass.planned = keys
  mirrors : Mirrors scope.topology (· ∈ scope.kinds) pass.live s
  inSync : pass.report.errors = [] → ∀ planned ∈ done, InSync scope.topology planned s
  clean : calm → pass.report.errors = []
  unclaimed : calm → ∀ planned ∈ Group.objectsOf groups, ∀ object,
    s.get? planned.key = some object → object.ownedBy scope.topology = true

namespace Progress

theorem mono {done' : List PlannedObject} (h : Progress scope groups calm keys done pass s)
    (hsub : ∀ planned ∈ done', planned ∈ done) : Progress scope groups calm keys done' pass s :=
  { h with inSync := fun herrors planned hmem => h.inSync herrors planned (hsub planned hmem) }

/-- After an error nothing is promised of the objects, and there is none while all is calm. -/
theorem fail {done' : List PlannedObject} (h : Progress scope groups calm keys done pass s)
    (hcalm : ¬ calm) (error : ResourceError) :
    Progress scope groups calm keys done' (pass.fail error) s :=
  { h with
    inSync := fun herrors => by simp at herrors
    clean := fun hc => absurd hc hcalm }

theorem keep (h : Progress scope groups calm keys done pass s) {object : Resource}
    (hkind : planned.key.kind ∈ scope.kinds) (hlive : pass.live.get? planned.key = some object)
    (hdrift : planned.object.needsUpdate object = false) :
    Progress scope groups calm keys (planned :: done) (pass.markReady planned.key) s :=
  { h with
    inSync := fun herrors other hmem => by
      rcases List.mem_cons.1 hmem with rfl | hmem
      · obtain ⟨hget, hown, -⟩ := (h.mirrors _ _).1 hlive
        exact ⟨object, hget, hown, hdrift⟩
      · exact h.inSync herrors other hmem }

/-- **An object was written.**  Objects under other keys are as they were. -/
theorem write (h : Progress scope groups calm keys done pass s) {stored : Resource}
    (hdistinct : ∀ other ∈ done, other.key = planned.key → other = planned)
    (hkind : planned.key.kind ∈ scope.kinds) (hkey : stored.key = planned.key)
    (hown : stored.ownedBy scope.topology = true)
    (hdrift : planned.object.needsUpdate stored = false) (action : Action) (change : Change) :
    Progress scope groups calm keys (planned :: done)
      (((pass.record action change).observe planned.key stored).markReady planned.key)
      (s.insert stored) where
  planned := h.planned
  mirrors := h.mirrors.insert hkey hown hkind
  inSync := by
    have hwritten : InSync scope.topology planned (s.insert stored) :=
      ⟨stored, hkey ▸ s.get?_insert_self stored, hown, hdrift⟩
    intro herrors other hmem
    rcases List.mem_cons.1 hmem with rfl | hmem
    · exact hwritten
    · by_cases heq : other.key = planned.key
      · rw [hdistinct other hmem heq]
        exact hwritten
      · obtain ⟨object, hget, hobject⟩ := h.inSync (by simpa using herrors) other hmem
        exact ⟨object, (Store.get?_insert_of_ne (hkey ▸ heq)).trans hget, hobject⟩
  clean hc := by simpa using h.clean hc
  unclaimed := by
    intro hc other hmem object hget
    rw [Store.get?_insert] at hget
    split at hget
    · exact Option.some.inj hget ▸ hown
    · exact h.unclaimed hc other hmem object hget

end Progress

section Apply

variable {type? : Option WorkloadType} (hserver : server.Faithful scope.topology)
  (hcalm : calm → ∀ s call e, ¬ server.refuses s call e)

include hserver hcalm

/-- There is nothing under the key of an object that the pass does not take to be live, except what
belongs to others; so when all is calm the object can be created. -/
theorem meets_create (h : Progress scope groups calm keys done pass s)
    (hdistinct : ∀ other ∈ done, other.key = planned.key → other = planned)
    (hmem : planned ∈ Group.objectsOf groups)
    (hkind : planned.key.kind ∈ scope.kinds) (hown : planned.object.ownedBy scope.topology = true)
    (hlive : pass.live.get? planned.key = none) :
    (Pass.create scope type? planned.object pass).Meets ⟨fun _ _ => True, server.Answers⟩
      (Progress scope groups calm keys (planned :: done)) s := by
  have hfree (object : Resource) (hget : s.get? planned.key = some object) : ¬ calm := by
    intro hc
    have hforeign := h.mirrors.foreign_of_none hlive hkind hget
    rw [h.unclaimed hc planned hmem object hget] at hforeign
    cases hforeign
  refine Pass.meets_create trivial ?_ ?_ ?_
  · rintro stored t ⟨-, hstores, rfl⟩
    have hfilled := hserver.filled hstores
    exact h.write hdistinct hkind hfilled.key ((Server.ownedBy_of_stores hstores _).trans hown)
      (Resource.needsUpdate_of_filled hfilled) _ _
  · rintro message t ⟨hrefused, rfl⟩
    -- The key is taken by an object of others, or the server says so for reasons of its own.
    have hnot : ¬ calm := by
      rcases hrefused with ⟨existing, hget⟩ | hrefused
      · exact hfree existing hget
      · exact fun hc => hcalm hc _ _ _ hrefused
    refine Pass.meets_adopt trivial ?_ ?_ ?_
    · rintro existing t ⟨hget, rfl⟩ hexisting
      have hforeign := h.mirrors.foreign_of_none hlive hkind hget
      rw [hexisting] at hforeign
      cases hforeign
    · rintro existing t ⟨-, rfl⟩ -
      exact h.fail hnot _
    · rintro e t ⟨-, rfl⟩
      exact h.fail hnot _
  · rintro e t ⟨hrefused, rfl⟩
    refine h.fail (fun hc => ?_) _
    rcases hrefused with hdeclined | hrefused
    · cases e with
      | alreadyExists m =>
        obtain ⟨existing, hget⟩ := hdeclined
        exact hfree existing hget hc
      | notFound _ | conflict _ | api _ | client => exact hdeclined
    · exact hcalm hc _ _ _ hrefused

/-- What the pass takes to be live is there in the version that the pass names. -/
theorem meets_replace (h : Progress scope groups calm keys done pass s)
    (hdistinct : ∀ other ∈ done, other.key = planned.key → other = planned)
    (hkind : planned.key.kind ∈ scope.kinds) (hown : planned.object.ownedBy scope.topology = true)
    {live : Resource} (hlive : pass.live.get? planned.key = some live) :
    (Pass.replace scope type? planned.object live pass).Meets ⟨fun _ _ => True, server.Answers⟩
      (Progress scope groups calm keys (planned :: done)) s := by
  obtain ⟨hget, -, -⟩ := (h.mirrors _ _).1 hlive
  have hrefuses (e : ClusterError) (hrefused : server.Refuses s
      (.replace (planned.object.update live)) e) : ¬ calm := by
    intro hc
    rcases hrefused with hdeclined | hrefused
    · have hkey : s.get? (planned.object.update live).key = some live := by
        rw [Resource.update_key]
        exact hget
      cases e with
      | notFound m =>
        have hnone : s.get? (planned.object.update live).key = none := hdeclined
        rw [hkey] at hnone
        cases hnone
      | conflict m =>
        obtain ⟨current, hcurrent, hversion⟩ := hdeclined
        obtain rfl := Option.some.inj (hkey.symm.trans hcurrent)
        rw [Resource.update_metadata] at hversion
        exact hversion rfl
      | alreadyExists _ | api _ | client => exact hdeclined
    · exact hcalm hc _ _ _ hrefused
  refine Pass.meets_replace trivial ?_ ?_ ?_
  · rintro stored t ⟨-, hstores, rfl⟩
    have hfilled := hserver.filled hstores
    refine h.write hdistinct hkind (hfilled.key.trans (Resource.update_key _ _)) ?_
      (Resource.needsUpdate_of_filled_update hfilled) _ _
    rw [Server.ownedBy_of_stores hstores, Resource.update_ownedBy, hown]
  · rintro message t ⟨hrefused, rfl⟩
    exact h.fail (hrefuses _ hrefused) _
  · rintro e t ⟨hrefused, rfl⟩
    exact h.fail (hrefuses e hrefused) _

/-- **One more object is applied.** -/
theorem meets_applyObject (h : Progress scope groups calm keys done pass s)
    (hdistinct : ∀ other ∈ done, other.key = planned.key → other = planned)
    (hmem : planned ∈ Group.objectsOf groups)
    (hkind : planned.key.kind ∈ scope.kinds) (hown : planned.object.ownedBy scope.topology = true)
    (hdependencies : calm → ∀ key ∈ planned.dependencies, pass.exists? key = true) :
    (Pass.applyObject scope type? planned pass).Meets ⟨fun _ _ => True, server.Answers⟩
      (Progress scope groups calm keys (planned :: done)) s := by
  refine Pass.meets_applyObject ?_ ?_ ?_ ?_
  · intro key hkey hmissing
    refine h.fail (fun hc => ?_) _
    rw [hdependencies hc key hkey] at hmissing
    cases hmissing
  · intro _ hlive
    exact meets_create hserver hcalm h hdistinct hmem hkind hown hlive
  · intro live _ hlive _
    exact meets_replace hserver hcalm h hdistinct hkind hown hlive
  · intro live _ hlive hdrift
    exact h.keep hkind hlive hdrift

end Apply

/-- What is in sync exists for the pass. -/
theorem Progress.exists?_of_mem (h : Progress scope groups calm keys done pass s) (hc : calm)
    (hmem : planned ∈ done) (hkind : planned.key.kind ∈ scope.kinds) :
    pass.exists? planned.key = true := by
  obtain ⟨object, hget, hown, -⟩ := h.inSync (h.clean hc) planned hmem
  exact Pass.exists?_iff.2 (Or.inr ⟨object, (h.mirrors _ _).2 ⟨hget, hown, hkind⟩⟩)

section Groups

variable (hserver : server.Faithful scope.topology)
  (hcalm : calm → ∀ s call e, ¬ server.refuses s call e) (hfit : Group.Fit scope groups)
  (hdistinct : (Group.keysOf groups).Nodup)

include hserver hcalm hfit hdistinct

/-- **The objects of one more group are applied.** -/
theorem meets_applyGroup {group : Group} {before : List Group} (hmem : group ∈ groups)
    (hbefore : ∀ earlier ∈ before, earlier ∈ groups)
    (h : Progress scope groups calm (Group.keysOf before) (Group.objectsOf before) pass s) :
    (Pass.applyGroup scope group.type? group.owner group.objects pass).Meets
      ⟨fun _ _ => True, server.Answers⟩
      (Progress scope groups calm (Group.keysOf (before ++ [group]))
        (Group.objectsOf (before ++ [group]))) s := by
  obtain ⟨order, horder, happly⟩ := Pass.exists_order_of_refusal_none (hfit.accepted group hmem)
  have hperm := PlannedObject.perm_of_applyOrder? horder
  have hinOrder := PlannedObject.inOrder_of_applyOrder? horder
  have hinjective : ∀ p ∈ Group.objectsOf groups, ∀ q ∈ Group.objectsOf groups,
      p.key = q.key → p = q := fun p hp q hq =>
    List.inj_on_of_nodup_map (Group.keysOf_eq groups ▸ hdistinct) hp hq
  have hall : ∀ p ∈ order, p ∈ Group.objectsOf groups := fun p hp =>
    List.mem_flatMap.2 ⟨group, hmem, hperm.mem_iff.1 hp⟩
  have hstart : Progress scope groups calm (Group.keysOf (before ++ [group]))
      (Group.objectsOf before) (pass.plan group.objects) s :=
    { h with planned := by rw [Group.keysOf_append, Group.keysOf_singleton, ← h.planned]; rfl }
  rw [happly]
  refine (meets_forEach_before (fun applied => Progress scope groups calm
    (Group.keysOf (before ++ [group])) (applied ++ Group.objectsOf before)) (fun applied p rest
      pass t hsplit hprogress => ?_) hstart).mono fun pass t hend => hend.mono fun p hp => ?_
  · have hp : p ∈ order := hsplit ▸ List.mem_append_right _ List.mem_cons_self
    have happlied : ∀ q ∈ applied, q ∈ order := fun q hq => hsplit ▸ List.mem_append_left _ hq
    have hearlier : ∀ q ∈ applied ++ Group.objectsOf before, q ∈ Group.objectsOf groups := by
      intro q hq
      rcases List.mem_append.1 hq with hq | hq
      · exact hall q (happlied q hq)
      · obtain ⟨earlier, hgroup, hq⟩ := List.mem_flatMap.1 hq
        exact List.mem_flatMap.2 ⟨earlier, hbefore earlier hgroup, hq⟩
    refine (meets_applyObject hserver hcalm hprogress
      (fun q hq => hinjective q (hearlier q hq) p (hall p hp)) (hall p hp)
      (hfit.kinds p (hall p hp)) (hfit.owned p (hall p hp)) ?_).mono fun pass t hnext => ?_
    · -- What the object depends on stands before it, and all of that is in sync.
      intro hc key hkey
      have hgroup := hfit.closed group hmem p (hperm.mem_iff.1 hp) key hkey
      rw [hsplit] at hinOrder
      rcases hinOrder.mem_before hkey hgroup with hnil | ⟨q, hq, rfl⟩
      · cases hnil
      · exact hprogress.exists?_of_mem hc (List.mem_append_left _ hq)
          (hfit.kinds q (hall q (happlied q hq)))
    · refine hnext.mono fun q hq => ?_
      simpa [or_left_comm, or_assoc] using hq
  · simpa [Group.objectsOf, hperm.mem_iff, or_comm] using hp

end Groups

/-! ## Pruning -/

/-- **How far the deletions have come** when those of `rest` are left. -/
structure Pruning (scope : Scope) (groups : List Group) (calm : Prop) (rest : List (Key × Resource))
    (pass : Pass) (s : Store) : Prop where
  inSync : pass.report.errors = [] → ∀ planned ∈ Group.objectsOf groups,
    InSync scope.topology planned s
  nothingElse : pass.report.errors = [] → ∀ object ∈ s, object.kind ∈ scope.kinds →
    object.ownedBy scope.topology = true →
      object.key ∈ Group.keysOf groups ∨ object.key ∈ rest.map Prod.fst
  clean : calm → pass.report.errors = []
  present : calm → ∀ entry ∈ rest, ∃ object, s.get? entry.1 = some object
  unplanned : ∀ entry ∈ rest, entry.1 ∉ Group.keysOf groups
  nodup : (rest.map Prod.fst).Nodup

namespace Pruning

variable {entry : Key × Resource} {rest : List (Key × Resource)}

theorem start
    (h : Progress scope groups calm (Group.keysOf groups) (Group.objectsOf groups) pass s) :
    Pruning scope groups calm pass.unwanted pass s where
  inSync := h.inSync
  nothingElse := by
    intro _ object hobject hkind hown
    by_cases hplanned : object.key ∈ Group.keysOf groups
    · exact Or.inl hplanned
    · refine Or.inr (List.mem_map.2 ⟨(object.key, object), Pass.mem_unwanted.2 ⟨?_, ?_⟩, rfl⟩)
      · exact (h.mirrors _ _).2 ⟨hobject, hown, hkind⟩
      · rwa [h.planned]
  clean := h.clean
  present _ entry hmem :=
    ⟨entry.2, ((h.mirrors _ _).1 (Pass.mem_unwanted.1 hmem).1).1⟩
  unplanned entry hmem := h.planned ▸ (Pass.mem_unwanted.1 hmem).2
  nodup := Pass.nodup_unwanted

/-- The object of an entry is gone, and nothing else has changed. -/
theorem gone (h : Pruning scope groups calm (entry :: rest) pass s) (change : Change)
    (hgone : t.get? entry.1 = none) (hkept : ∀ key, key ≠ entry.1 → t.get? key = s.get? key) :
    Pruning scope groups calm rest (pass.record .delete change) t where
  inSync := by
    intro herrors planned hmem
    obtain ⟨object, hget, hobject⟩ := h.inSync (by simpa using herrors) planned hmem
    have hne : planned.key ≠ entry.1 := by
      intro heq
      refine h.unplanned entry List.mem_cons_self ?_
      rw [← heq, Group.keysOf_eq]
      exact List.mem_map_of_mem hmem
    exact ⟨object, (hkept planned.key hne).trans hget, hobject⟩
  nothingElse := by
    intro herrors object hobject hkind hown
    have hne : object.key ≠ entry.1 := by
      intro heq
      rw [Store.mem_iff, heq, hgone] at hobject
      cases hobject
    have hbefore : object ∈ s := (hkept object.key hne).symm.trans hobject
    rcases h.nothingElse (by simpa using herrors) object hbefore hkind hown with hplanned | hrest
    · exact Or.inl hplanned
    · exact Or.inr ((List.mem_cons.1 hrest).resolve_left hne)
  clean hc := by simpa using h.clean hc
  present := by
    intro hc other hmem
    obtain ⟨object, hget⟩ := h.present hc other (List.mem_cons_of_mem _ hmem)
    have hne : other.1 ≠ entry.1 := by
      intro heq
      exact (List.nodup_cons.1 h.nodup).1 (heq ▸ List.mem_map_of_mem hmem)
    exact ⟨object, (hkept other.1 hne).trans hget⟩
  unplanned other hmem := h.unplanned other (List.mem_cons_of_mem _ hmem)
  nodup := (List.nodup_cons.1 h.nodup).2

theorem fail (h : Pruning scope groups calm (entry :: rest) pass s) (hcalm : ¬ calm)
    (error : ResourceError) : Pruning scope groups calm rest (pass.fail error) s where
  inSync herrors := by simp at herrors
  nothingElse herrors := by simp at herrors
  clean hc := absurd hc hcalm
  present hc := absurd hc hcalm
  unplanned other hmem := h.unplanned other (List.mem_cons_of_mem _ hmem)
  nodup := (List.nodup_cons.1 h.nodup).2

end Pruning

/-- **After the deletions** of a clean pass everything is in place, and all went well if all was
calm. -/
theorem meets_prune (hserver : server.Faithful scope.topology)
    (hcalm : calm → ∀ s call e, ¬ server.refuses s call e)
    (h : Progress scope groups calm (Group.keysOf groups) (Group.objectsOf groups) pass s) :
    (Pass.prune scope pass).Meets ⟨fun _ _ => True, server.Answers⟩
      (fun pass t => (pass.report.errors = [] → InPlace scope groups t) ∧
        (calm → pass.report.errors = [])) s := by
  refine (meets_forEach (Pruning scope groups calm) ?_ _ _ _ (Pruning.start h)).mono ?_
  · intro entry rest pass s h
    refine Pass.meets_delete trivial ?_ ?_ ?_
    · rintro t ⟨-, rfl⟩
      exact h.gone _ (by simp) fun key hne => Store.get?_erase_of_ne hne
    · -- The object of the entry was gone already.
      rintro message t ⟨hrefused, rfl⟩
      refine h.gone _ ?_ fun _ _ => rfl
      rcases hrefused with hnone | hrefused
      · exact hnone
      · exact hserver.honest_delete hrefused
    · rintro e t ⟨hrefused, rfl⟩
      refine h.fail (fun hc => ?_) _
      rcases hrefused with hdeclined | hrefused
      · cases e with
        | notFound m =>
          obtain ⟨object, hget⟩ := h.present hc entry List.mem_cons_self
          have hnone : t.get? entry.1 = none := hdeclined
          rw [hnone] at hget
          cases hget
        | alreadyExists _ | conflict _ | api _ | client => exact hdeclined
      · exact hcalm hc _ _ _ hrefused
  · intro pass t h
    refine ⟨fun herrors => ⟨h.inSync herrors, ?_⟩, h.clean⟩
    intro object hobject hkind hown
    exact (h.nothingElse herrors object hobject hkind hown).resolve_right List.not_mem_nil

/-- **A clean pass puts everything in place**, and a calm one is clean. -/
theorem meets_overGroups (hserver : server.Faithful scope.topology)
    (hcalm : calm → ∀ s call e, ¬ server.refuses s call e) (hfit : Group.Fit scope groups)
    (hdistinct : (Group.keysOf groups).Nodup)
    (hunclaimed : calm → ∀ planned ∈ Group.objectsOf groups, ∀ object,
      s.get? planned.key = some object → object.ownedBy scope.topology = true) :
    (Pass.overGroups scope groups).Meets ⟨fun _ _ => True, server.Answers⟩
      (fun result t => (∀ pass, result = .ok pass → pass.report.errors = [] →
          InPlace scope groups t) ∧
        (calm → ∃ pass, result = .ok pass ∧ pass.report.errors = [])) s := by
  refine meets_begin_of_mirrors hserver (fun _ => trivial) ?_ fun live hmirrors => ?_
  · intro kind e hrefused
    exact ⟨nofun, fun hc => absurd hrefused (hcalm hc _ _ _)⟩
  have hstart : Progress scope groups calm (Group.keysOf []) (Group.objectsOf []) (Pass.start live)
      s :=
    ⟨rfl, hmirrors, fun _ _ hmem => (List.not_mem_nil hmem).elim, fun _ => rfl, hunclaimed⟩
  refine meets_bind.2 ((meets_forEach_before (fun before =>
    Progress scope groups calm (Group.keysOf before) (Group.objectsOf before)) ?_ hstart).mono ?_)
  · intro before group rest pass t hsplit hprogress
    exact meets_applyGroup hserver hcalm hfit hdistinct
      (hsplit ▸ List.mem_append_right _ List.mem_cons_self)
      (fun earlier hearlier => hsplit ▸ List.mem_append_left _ hearlier) hprogress
  · intro pass t hprogress
    refine (meets_prune hserver hcalm hprogress).mono fun pass u hend => ?_
    refine ⟨fun pass' heq => ?_, fun hc => ⟨_, rfl, hend.2 hc⟩⟩
    obtain rfl := Except.ok.inj heq
    exact hend.1

/-! ## Nothing to do -/

/-- The pass has changed nothing so far and has met no error. -/
structure Idle (live : SortedMap Key Resource) (keys : List Key) (s : Store) (pass : Pass)
    (t : Store) : Prop where
  store : t = s
  live : pass.live = live
  planned : pass.planned = keys
  report : pass.report = .empty

section Idle

variable {live : SortedMap Key Resource} {allows : Store → Call → Prop}
  (hfit : Group.Fit scope groups) (hmirrors : Mirrors scope.topology (· ∈ scope.kinds) live s)
  (hplace : InPlace scope groups s)

include hfit hmirrors hplace

theorem get?_of_inPlace (hmem : planned ∈ Group.objectsOf groups) :
    ∃ object, live.get? planned.key = some object ∧ planned.object.needsUpdate object = false := by
  obtain ⟨object, hget, hown, hdrift⟩ := hplace.inSync planned hmem
  exact ⟨object, (hmirrors _ _).2 ⟨hget, hown, hfit.kinds planned hmem⟩, hdrift⟩

/-- Applying what is in place is only looking. -/
theorem meets_applyGroup_of_inPlace {group : Group} (hmem : group ∈ groups)
    (hidle : Idle live keys s pass t) :
    (Pass.applyGroup scope group.type? group.owner group.objects pass).Meets
      ⟨allows, server.Answers⟩ (Idle live (keys ++ group.keys) s) t := by
  obtain ⟨order, horder, happly⟩ := Pass.exists_order_of_refusal_none (hfit.accepted group hmem)
  have hperm := PlannedObject.perm_of_applyOrder? horder
  have hall : ∀ p ∈ group.objects, p ∈ Group.objectsOf groups := fun p hp =>
    List.mem_flatMap.2 ⟨group, hmem, hp⟩
  have hstart : Idle live (keys ++ group.keys) s (pass.plan group.objects) t :=
    { hidle with planned := by rw [← hidle.planned]; rfl }
  rw [happly]
  refine meets_forEach_mem (Idle live (keys ++ group.keys) s) (fun p hp pass t hidle => ?_) hstart
  replace hp : p ∈ group.objects := hperm.mem_iff.1 hp
  obtain ⟨object, hlive, hdrift⟩ := get?_of_inPlace hfit hmirrors hplace (hall p hp)
  refine Pass.meets_applyObject (fun key hkey hmissing => ?_) (fun _ hnone => ?_)
    (fun other _ hother hother' => ?_) (fun _ _ _ _ => { hidle with })
  · -- Nothing that is depended on is missing.
    obtain ⟨q, hq, rfl⟩ := List.mem_map.1 (hfit.closed group hmem p hp key hkey)
    obtain ⟨needed, hneeded, -⟩ := get?_of_inPlace hfit hmirrors hplace (hall q hq)
    have hexists := Pass.exists?_iff.2 (Or.inr ⟨needed, hidle.live ▸ hneeded⟩)
    cases hexists.symm.trans hmissing
  · rw [hidle.live, hlive] at hnone
    cases hnone
  · -- Nothing has drifted.
    obtain rfl := Option.some.inj (hlive.symm.trans (hidle.live ▸ hother))
    cases hdrift.symm.trans hother'

omit hfit in
/-- There is nothing to delete where everything is in place. -/
theorem unwanted_of_inPlace (hidle : Idle live (Group.keysOf groups) s pass t) :
    pass.unwanted = [] := by
  refine List.eq_nil_iff_forall_not_mem.2 fun entry hmem => ?_
  obtain ⟨hget, hunplanned⟩ := Pass.mem_unwanted.1 hmem
  rw [hidle.live, hmirrors] at hget
  rw [hidle.planned] at hunplanned
  obtain ⟨hget, hown, hkind⟩ := hget
  have hkey : entry.2.key = entry.1 := Store.key_of_get? hget
  have hplanned := hplace.nothingElse entry.2 (Store.mem_of_get? hget)
    (by rwa [← hkey] at hkind) hown
  exact hunplanned (hkey ▸ hplanned)

omit hmirrors in
/-- **A pass over what is in place** makes no write, and ends without a change or an error unless a
list is refused. -/
theorem meets_overGroups_of_inPlace (hserver : server.Faithful scope.topology) :
    (Pass.overGroups scope groups).Meets
      ⟨fun t call => t = s ∧ call.isWrite = false, server.Answers⟩
      (fun result t => t = s ∧ (∀ pass, result = .ok pass → pass.report = .empty) ∧
        ∀ e, result = .error e → ∃ call source, server.refuses s call source) s := by
  refine meets_begin_of_mirrors hserver (fun _ => ⟨rfl, rfl⟩)
    (fun _ e hrefused => ⟨rfl, nofun, fun _ _ => ⟨_, e, hrefused⟩⟩) fun live hmirrors => ?_
  have hstart : Idle live (Group.keysOf []) s (Pass.start live) s := ⟨rfl, rfl, rfl, rfl⟩
  refine meets_bind.2 ((meets_forEach_before (fun before =>
    Idle live (Group.keysOf before) s) (fun before group rest pass t hsplit hidle => ?_)
      hstart).mono fun pass t hidle => ?_)
  · rw [Group.keysOf_append, Group.keysOf_singleton]
    exact meets_applyGroup_of_inPlace hfit hmirrors hplace
      (hsplit ▸ List.mem_append_right _ List.mem_cons_self) hidle
  · unfold Pass.prune
    rw [unwanted_of_inPlace hmirrors hplace hidle]
    refine ⟨hidle.store, fun pass' heq => ?_, nofun⟩
    obtain rfl := Except.ok.inj heq
    exact hidle.report

end Idle

end Convergence

/-! ## Reconciliations -/

namespace Reconciles

open Convergence (InPlace)

variable {scope : Scope} {groups : List Group} {program : Program (Except PassError PassReport)}
  {server : Server} {calm : Prop} {s : Store}

/-- **A clean reconciliation puts everything in place**, and a calm one is clean. -/
theorem meets_inPlace (h : Reconciles scope groups program)
    (hserver : server.Faithful scope.topology)
    (hcalm : calm → ∀ s call e, ¬ server.refuses s call e) (hfit : Group.Fit scope groups)
    (hdistinct : (Group.keysOf groups).Nodup)
    (hunclaimed : calm → ∀ planned ∈ Group.objectsOf groups, ∀ object,
      s.get? planned.key = some object → object.ownedBy scope.topology = true) :
    program.Meets ⟨fun _ _ => True, server.Answers⟩
      (fun result t => (∀ report, result = .ok report → report.errors = [] →
          InPlace scope groups t) ∧
        (calm → ∃ report, result = .ok report ∧ report.errors = [])) s := by
  refine h.meets (Convergence.meets_overGroups hserver hcalm hfit hdistinct hunclaimed) ?_ ?_
  · rintro pass nodes t ⟨hplace, hclean⟩
    refine ⟨fun report heq herrors => ?_, fun hc => ⟨_, rfl, ?_⟩⟩
    · obtain rfl := Except.ok.inj heq
      exact hplace pass rfl herrors
    · obtain ⟨pass', heq, herrors⟩ := hclean hc
      obtain rfl := Except.ok.inj heq
      exact herrors
  · rintro error t ⟨-, hclean⟩
    refine ⟨nofun, fun hc => ?_⟩
    obtain ⟨pass, heq, -⟩ := hclean hc
    cases heq

/-- **A reconciliation of what is in place** makes no write, and ends without a change or an error
unless a list is refused. -/
theorem meets_of_inPlace (h : Reconciles scope groups program)
    (hserver : server.Faithful scope.topology) (hfit : Group.Fit scope groups)
    (hplace : InPlace scope groups s) :
    program.Meets ⟨fun t call => t = s ∧ call.isWrite = false, server.Answers⟩
      (fun result t => t = s ∧
        (∀ report, result = .ok report → report.changeCount = 0 ∧ report.errors = []) ∧
        ∀ e, result = .error e → ∃ call source, server.refuses s call source) s := by
  refine h.meets (Convergence.meets_overGroups_of_inPlace hfit hplace hserver) ?_ ?_
  · rintro pass nodes t ⟨hstore, hreport, -⟩
    refine ⟨hstore, fun report heq => ?_, nofun⟩
    obtain rfl := Except.ok.inj heq
    rw [hreport pass rfl]
    exact ⟨rfl, rfl⟩
  · rintro error t ⟨hstore, -, hrefused⟩
    exact ⟨hstore, nofun, fun e heq => hrefused e (Except.error.inj heq ▸ rfl)⟩

end Reconciles

end NetLab
