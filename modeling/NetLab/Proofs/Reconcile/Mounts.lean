import NetLab.Proofs.Cluster.Plain
import NetLab.Proofs.Reconcile.Order
import NetLab.Proofs.Reconcile.Rules
import NetLab.Proofs.Render.Mounts

/-!
# Workloads and the ConfigMaps they mount

Rendering and applying respect what a workload mounts: its ConfigMap is applied first, and what was
planned is not deleted.  Pruning looks at what was planned only.  It deletes a ConfigMap that is no
longer planned also when the workload that still mounts it could not be replaced or deleted before.

`mounted_iff` says exactly when a run keeps every mounted ConfigMap in place: when each ConfigMap
that it deletes was deleted after every workload that mounted it at the beginning had been replaced
or deleted (`DeletesUnmounted`).  Not every run does so (`mounted_not_kept`).

What a pass sees to is in `contract`: it writes workloads only while what they mount is there, and
deletes nothing that was planned.  The invariant that this keeps up along a run is `Kept`.
-/

namespace NetLab

open Cluster Kube Program

/-- **Every workload of the topology finds what it mounts.** -/
def Mounted (topology : String) (s : Store) : Prop :=
  ∀ object ∈ s, object.runsNode = true → object.ownedBy topology = true →
    ∀ name ∈ object.mounts, ∃ config, s.get? ⟨.configMap, name⟩ = some config

instance (topology : String) (s : Store) : Decidable (Mounted topology s) :=
  decidable_of_iff (∀ object ∈ s.objects.values, object.runsNode = true →
      object.ownedBy topology = true →
        ∀ name ∈ object.mounts, (s.get? ⟨.configMap, name⟩).isSome = true) <| by
    simp only [Mounted, Store.mem_values_iff, Option.isSome_iff_exists]

/-- Each ConfigMap that a run deletes was deleted after every workload of the topology that mounted
it in the first store had been replaced or deleted. -/
def DeletesUnmounted (topology : String) (s : Store) (events : List (Event Store)) : Prop :=
  ∀ before event later, events = before ++ event :: later → ¬ event.Failed →
    ∀ name, event.call = .delete ⟨.configMap, name⟩ →
      ∀ object ∈ s, object.runsNode = true → object.ownedBy topology = true →
        name ∈ object.mounts →
          ∃ earlier ∈ before, earlier.call.Destroys object.key ∧ ¬ earlier.Failed

namespace Mounts

/-- A workload is written only while the planned ConfigMaps that it mounts are there, and nothing
that was planned is deleted. -/
def contract (server : Server) (planned : List Key) : Contract Store where
  allows s
    | .list _ _ | .get _ => True
    | .create object | .replace object => object.runsNode = true → ∀ name ∈ object.mounts,
        ⟨.configMap, name⟩ ∈ planned ∧ ∃ config, s.get? ⟨.configMap, name⟩ = some config
    | .delete key => key ∉ planned
  answers := server.Answers

variable {server : Server} {topology : String} {planned : List Key} {s t u : Store}
  {history : List (Event Store)}

/-! ## What the calls of a run keep up -/

/-- **What a run that keeps the contract has kept up.**  A workload is either one of the first store
that no call has replaced or deleted, or finds what it mounts among what was planned; and a
ConfigMap is missing only if it was deleted. -/
structure Kept (topology : String) (planned : List Key) (s : Store) (history : List (Event Store))
    (t : Store) : Prop where
  workloads : ∀ object ∈ t, object.runsNode = true → object.ownedBy topology = true →
    (object ∈ s ∧ ∀ event ∈ history, event.call.Destroys object.key → event.Failed) ∨
      ∀ name ∈ object.mounts, ⟨.configMap, name⟩ ∈ planned ∧
        ∃ config, t.get? ⟨.configMap, name⟩ = some config
  configs : ∀ name config, s.get? ⟨.configMap, name⟩ = some config →
    (∃ config, t.get? ⟨.configMap, name⟩ = some config) ∨
      ∃ event ∈ history, event.call = .delete ⟨.configMap, name⟩ ∧ ¬ event.Failed
  untouched : ∀ object ∈ s,
    (∀ event ∈ history, event.call.Destroys object.key → event.Failed) → object ∈ t

namespace Kept

theorem start (s : Store) : Kept topology planned s [] s where
  workloads _ hobject _ _ := Or.inl ⟨hobject, fun _ hmem => nomatch hmem⟩
  configs _ config hconfig := Or.inl ⟨config, hconfig⟩
  untouched _ hobject _ := hobject

variable {event : Event Store}

/-- A call that changes nothing. -/
theorem unchanged (h : Kept topology planned s history t)
    (hevent : ∀ key, event.call.Destroys key → event.Failed) :
    Kept topology planned s (history ++ [event]) t where
  workloads object hobject hruns hown := by
    refine (h.workloads object hobject hruns hown).imp_left fun ⟨hfirst, huntouched⟩ => ?_
    exact ⟨hfirst, List.forall_mem_append.2
      ⟨huntouched, List.forall_mem_singleton.2 (hevent object.key)⟩⟩
  configs name config hconfig := by
    refine (h.configs name config hconfig).imp_right fun ⟨event, hmem, hdeleted⟩ => ?_
    exact ⟨event, List.mem_append_left _ hmem, hdeleted⟩
  untouched object hobject huntouched :=
    h.untouched object hobject (List.forall_mem_append.1 huntouched).1

/-- **A call that writes an object.**  Under its key there was no object, or it is replaced. -/
theorem written (h : Kept topology planned s history t) {stored : Resource}
    (hfinds : stored.runsNode = true → ∀ name ∈ stored.mounts,
      ⟨.configMap, name⟩ ∈ planned ∧ ∃ config, t.get? ⟨.configMap, name⟩ = some config)
    (hothers : ∀ key, event.call.Destroys key → key = stored.key)
    (hkey : t.get? stored.key = none ∨ event.call.Destroys stored.key ∧ ¬ event.Failed) :
    Kept topology planned s (history ++ [event]) (t.insert stored) where
  workloads object hobject hruns hown := by
    rw [Store.mem_iff, Store.get?_insert] at hobject
    split at hobject
    · obtain rfl := Option.some.inj hobject
      refine Or.inr fun name hname => ?_
      obtain ⟨hplanned, hconfig⟩ := hfinds hruns name hname
      exact ⟨hplanned, Store.exists_get?_insert _ hconfig⟩
    · rename_i hne
      rcases h.workloads object hobject hruns hown with ⟨hfirst, huntouched⟩ | hfound
      · exact Or.inl ⟨hfirst, List.forall_mem_append.2 ⟨huntouched,
          List.forall_mem_singleton.2 fun hdestroys => absurd (hothers _ hdestroys) hne⟩⟩
      · refine Or.inr fun name hname => ?_
        obtain ⟨hplanned, hconfig⟩ := hfound name hname
        exact ⟨hplanned, Store.exists_get?_insert _ hconfig⟩
  configs name config hconfig := by
    rcases h.configs name config hconfig with hconfig | ⟨event, hmem, hdeleted⟩
    · exact Or.inl (Store.exists_get?_insert _ hconfig)
    · exact Or.inr ⟨event, List.mem_append_left _ hmem, hdeleted⟩
  untouched object hobject huntouched := by
    obtain ⟨hbefore, hnow⟩ := List.forall_mem_append.1 huntouched
    have hold := h.untouched object hobject hbefore
    -- Under the key that is written there was nothing, or what was there counts as replaced.
    have hne : object.key ≠ stored.key := by
      intro heq
      rcases hkey with hfree | ⟨hdestroys, hok⟩
      · rw [← heq, Store.mem_iff.1 hold] at hfree
        cases hfree
      · exact hok (List.forall_mem_singleton.1 hnow (heq ▸ hdestroys))
    rw [Store.mem_iff, Store.get?_insert_of_ne hne]
    exact hold

/-- **A call that deletes an object** that was not planned. -/
theorem deleted (h : Kept topology planned s history t) {gone : Key} (hunplanned : gone ∉ planned)
    (hcall : event.call = .delete gone) (hok : ¬ event.Failed) :
    Kept topology planned s (history ++ [event]) (t.erase gone) where
  workloads object hobject hruns hown := by
    rw [Store.mem_iff, Store.get?_erase] at hobject
    split at hobject
    · cases hobject
    · rename_i hne
      rcases h.workloads object hobject hruns hown with ⟨hfirst, huntouched⟩ | hfinds
      · refine Or.inl ⟨hfirst, List.forall_mem_append.2
          ⟨huntouched, List.forall_mem_singleton.2 fun hdestroys => ?_⟩⟩
        rw [hcall] at hdestroys
        exact absurd hdestroys.symm hne
      · -- What was planned is not deleted.
        refine Or.inr fun name hname => ?_
        obtain ⟨hplanned, hconfig⟩ := hfinds name hname
        have hne : (⟨.configMap, name⟩ : Key) ≠ gone := fun heq => hunplanned (heq ▸ hplanned)
        exact ⟨hplanned, (Store.get?_erase_of_ne hne).symm ▸ hconfig⟩
  configs name config hconfig := by
    rcases h.configs name config hconfig with hconfig | ⟨event, hmem, hdeleted⟩
    · by_cases hgone : (⟨.configMap, name⟩ : Key) = gone
      · exact Or.inr ⟨event, List.mem_append_right _ List.mem_cons_self, hgone ▸ hcall, hok⟩
      · exact Or.inl ((Store.get?_erase_of_ne hgone).symm ▸ hconfig)
    · exact Or.inr ⟨event, List.mem_append_left _ hmem, hdeleted⟩
  untouched object hobject huntouched := by
    obtain ⟨hbefore, hnow⟩ := List.forall_mem_append.1 huntouched
    have hold := h.untouched object hobject hbefore
    have hne : object.key ≠ gone := by
      intro heq
      refine hok (List.forall_mem_singleton.1 hnow ?_)
      rw [hcall]
      exact heq.symm
    rw [Store.mem_iff, Store.get?_erase_of_ne hne]
    exact hold

/-- **One call** that the contract allows. -/
theorem step (hmounts : ∀ {sent stored}, server.stores sent stored → stored.mounts = sent.mounts)
    (h : Kept topology planned s history t) {call : Call} {answer : call.Answer}
    (hallowed : (contract server planned).allows t call) (hanswer : server.Answers t call answer u) :
    Kept topology planned s (history ++ [⟨call, answer, u⟩]) u := by
  rcases hanswer.effect with ⟨rfl, hfailed⟩ | ⟨hok, heffect⟩
  · exact h.unchanged fun key hdestroys => hfailed hdestroys.isWrite
  have hevent : ¬ (⟨call, answer, u⟩ : Event Store).Failed := fun ⟨error, herror⟩ => hok error herror
  rcases heffect with ⟨sent, stored, hstores, rfl, hcall⟩ | ⟨gone, rfl, rfl⟩
  · have hkey := server.key_of_stores hstores
    have hfinds : stored.runsNode = true → ∀ name ∈ stored.mounts,
        ⟨.configMap, name⟩ ∈ planned ∧ ∃ config, t.get? ⟨.configMap, name⟩ = some config := by
      rw [Resource.runsNode, server.kind_of_stores hstores, hmounts hstores]
      rcases hcall with ⟨rfl, -⟩ | rfl <;> exact hallowed
    rcases hcall with ⟨rfl, hfree⟩ | rfl
    · exact h.written hfinds (fun _ => False.elim) (Or.inl (hkey ▸ hfree))
    · exact h.written hfinds (fun _ hdestroys => (hkey.trans hdestroys).symm)
        (Or.inr ⟨hkey.symm, hevent⟩)
  · exact h.deleted hallowed rfl hevent

end Kept

/-- **A whole run**, or a part of one. -/
theorem kept_of_reaches {α : Type} {post : α → Store → Prop} {p q : Program α}
    {events : List (Event Store)}
    (hmounts : ∀ {sent stored}, server.stores sent stored → stored.mounts = sent.mounts)
    (hreach : p.Reaches server.Answers t events q u) (hmeets : p.Meets (contract server planned) post t)
    (h : Kept topology planned s history t) :
    Kept topology planned s (history ++ events) u := by
  induction hreach generalizing history with
  | here => rwa [List.append_nil]
  | call hanswer _ ih =>
    have hrest := ih (hmeets.2 _ _ hanswer) (h.step hmounts hmeets.1 hanswer)
    rwa [List.append_assoc] at hrest

/-! ## What a pass sees to -/

/-- Whatever the pass counts as existing is in the store; `keys` are planned. -/
structure Holds (keys : List Key) (pass : Pass) (s : Store) : Prop where
  planned : pass.planned = keys
  exists? : ∀ key, pass.exists? key = true → ∃ object, s.get? key = some object

section Pass

variable {scope : Scope} {type? : Option WorkloadType} {pass : Pass} {keys : List Key}
  {p : PlannedObject}

theorem Holds.fail (h : Holds keys pass s) (error : ResourceError) :
    Holds keys (pass.fail error) s :=
  ⟨h.planned, h.exists?⟩

/-- A key was found or put in order, and nothing was deleted. -/
theorem Holds.settle (h : Holds keys pass s) {pass' : Pass} {key : Key}
    (hplanned : pass'.planned = pass.planned)
    (hpass : ∀ other, pass'.exists? other = true ↔ pass.exists? other = true ∨ other = key)
    (hstore : ∀ other, (∃ object, s.get? other = some object) → ∃ object, t.get? other = some object)
    (hkey : ∃ object, t.get? key = some object) : Holds keys pass' t where
  planned := hplanned.trans h.planned
  exists? other hother := by
    rcases (hpass other).1 hother with hbefore | rfl
    · exact hstore other (h.exists? other hbefore)
    · exact hkey

/-- An object was written. -/
theorem Holds.write (h : Holds keys pass s) {key : Key} {stored : Resource}
    (hkey : stored.key = key) (action : Action) (change : Change) :
    Holds keys (((pass.record action change).observe key stored).markReady key)
      (s.insert stored) :=
  h.settle rfl (by simp) (fun _ => Store.exists_get?_insert stored)
    ⟨stored, hkey ▸ s.get?_insert_self stored⟩

/-- **An object is applied** once what it mounts is there. -/
theorem meets_applyObject (h : Holds keys pass s)
    (hmounts : p.object.runsNode = true → ∀ name ∈ p.object.mounts,
      ⟨.configMap, name⟩ ∈ p.dependencies)
    (hplanned : ∀ key ∈ p.dependencies, key ∈ planned) :
    (Pass.applyObject scope type? p pass).Meets (contract server planned) (Holds keys) s := by
  have hfinds (hexists : ∀ key ∈ p.dependencies, pass.exists? key = true)
      (hruns : p.object.runsNode = true) : ∀ name ∈ p.object.mounts, ⟨.configMap, name⟩ ∈ planned ∧
        ∃ config, s.get? ⟨.configMap, name⟩ = some config := by
    intro name hname
    have hkey := hmounts hruns name hname
    exact ⟨hplanned _ hkey, h.exists? _ (hexists _ hkey)⟩
  refine Pass.meets_applyObject (fun _ _ _ => h.fail _) (fun hexists _ => ?_)
    (fun live hexists hlive _ => ?_) (fun live _ hlive _ => ?_)
  · refine Pass.meets_create (hfinds hexists) ?_ ?_ ?_
    · rintro stored t ⟨-, hstores, rfl⟩
      exact h.write (server.key_of_stores hstores) _ _
    · rintro message t ⟨-, rfl⟩
      refine Pass.meets_adopt trivial ?_ ?_ ?_
      · rintro existing u ⟨hget, rfl⟩ -
        exact h.settle rfl (by simp) (fun _ => id) ⟨existing, hget⟩
      · rintro existing u ⟨-, rfl⟩ -
        exact h.fail _
      · rintro e u ⟨-, rfl⟩
        exact h.fail _
    · rintro e t ⟨-, rfl⟩
      exact h.fail _
  · refine Pass.meets_replace (fun hruns => ?_) ?_ ?_ ?_
    · rw [Resource.runsNode, Resource.update_kind] at hruns
      rw [Resource.mounts_update hruns]
      exact hfinds hexists hruns
    · rintro stored t ⟨-, hstores, rfl⟩
      exact h.write ((server.key_of_stores hstores).trans (Resource.update_key _ _)) _ _
    · rintro message t ⟨-, rfl⟩
      exact h.fail _
    · rintro e t ⟨-, rfl⟩
      exact h.fail _
  · have hkey := h.exists? _ (Pass.exists?_iff.2 (Or.inr ⟨live, hlive⟩))
    exact h.settle rfl (by simp) (fun _ => id) hkey

theorem meets_applyGroup {owner : String} {plan : NodePlan} (h : Holds keys pass s)
    (hmounts : plan.DependsOnMounts)
    (hplanned : ∀ p ∈ plan.objects, ∀ key ∈ p.dependencies, key ∈ planned) :
    (Pass.applyGroup scope type? owner plan.objects pass).Meets (contract server planned)
      (Holds (keys ++ plan.keys)) s := by
  have hstart : Holds (keys ++ plan.keys) (pass.plan plan.objects) s :=
    ⟨by rw [← h.planned]; rfl, h.exists?⟩
  refine Pass.meets_applyGroup (fun _ _ _ => hstart.fail _) (fun _ => hstart.fail _)
    fun order _ horder => ?_
  refine meets_forEach_mem (Holds (keys ++ plan.keys)) (fun q hmem pass t hholds => ?_) hstart
  have hq : q ∈ plan.objects := (PlannedObject.perm_of_applyOrder? horder).mem_iff.1 hmem
  exact meets_applyObject hholds (hmounts q hq) (hplanned q hq)

/-- Nothing that was planned is deleted. -/
theorem meets_prune (h : pass.planned = planned) :
    (Pass.prune scope pass).Meets (contract server planned) (fun _ _ => True) s := by
  refine meets_forEach_mem (fun _ _ => True) (fun entry hmem pass' s _ => ?_) trivial
  have hunplanned : entry.1 ∉ planned := h ▸ (Pass.mem_unwanted.1 hmem).2
  exact Pass.meets_delete hunplanned (fun _ _ => trivial) (fun _ _ _ => trivial)
    fun _ _ _ => trivial

end Pass

/-- **A whole workload pass.** -/
theorem meets_reconcileWorkloads {namespaceName : String} {plans : SortedMap String NodePlan}
    (hmounts : ∀ entry ∈ plans.entries, entry.2.DependsOnMounts)
    (hclosed : ∀ entry ∈ plans.entries, ∀ p ∈ entry.2.objects, ∀ key ∈ p.dependencies,
      key ∈ entry.2.keys) :
    (reconcileWorkloads topology namespaceName plans).Meets
      (contract server ((NodePlan.allObjects plans).map PlannedObject.key)) (fun _ _ => True) s := by
  unfold reconcileWorkloads
  refine Pass.meets_begin (fun _ live t => ∀ key object, live.get? key = some object →
    ∃ found, t.get? key = some found) ?_ ?_ ?_ ?_ ?_ ?_
  · exact fun _ _ _ _ _ => trivial
  · rintro kind rest live t items u hlive ⟨hlist, rfl⟩ key object hget
    rcases Pass.get?_addOwned topology live items key with ⟨item, hmem, -, rfl, -⟩ | ⟨-, hsame⟩
    · exact ⟨item, (server.mem_of_lists hlist item hmem).1⟩
    · exact hlive key object (hsame.symm.trans hget)
  · rintro rest live t message u hlive ⟨-, rfl⟩
    exact hlive
  · exact fun _ _ _ _ _ _ _ _ => trivial
  · intro live t hlive
    have hstart : Holds [] (Pass.start live) t := by
      refine ⟨rfl, fun key hexists => ?_⟩
      rcases Pass.exists?_iff.1 hexists with hready | ⟨object, hget⟩
      · cases hready
      · exact hlive key object hget
    refine Pass.meets_workloads ((meets_forEach_before
      (fun before => Holds (NodePlan.keysOf before)) ?_ hstart).mono ?_)
    · intro before entry rest pass t hsplit hholds
      have hentry : entry ∈ plans.entries := hsplit ▸ List.mem_append_right _ List.mem_cons_self
      rw [NodePlan.keysOf_append]
      refine meets_applyGroup hholds (hmounts entry hentry) fun p hp key hkey => ?_
      obtain ⟨q, hq, rfl⟩ := List.mem_map.1 (hclosed entry hentry p hp key hkey)
      exact List.mem_map_of_mem (List.mem_flatMap.2 ⟨entry, hentry, hq⟩)
    · intro pass t hholds
      exact meets_prune (hholds.planned.trans (NodePlan.keysOf_entries plans))
  · intro key object hget
    cases hget

/-! ## Exactly when nothing is left dangling -/

theorem deletesUnmounted_of_append {events later : List (Event Store)}
    (h : DeletesUnmounted topology s (events ++ later)) : DeletesUnmounted topology s events := by
  rintro before event rest rfl
  exact h before event (rest ++ later) (by simp)

theorem mounted_of_kept (hs : Mounted topology s) (h : Kept topology planned s history t)
    (hdeletes : DeletesUnmounted topology s history) : Mounted topology t := by
  intro object hobject hruns hown name hname
  rcases h.workloads object hobject hruns hown with ⟨hfirst, huntouched⟩ | hfinds
  · obtain ⟨config, hconfig⟩ := hs object hfirst hruns hown name hname
    refine (h.configs name config hconfig).resolve_right ?_
    rintro ⟨event, hmem, hcall, hok⟩
    -- The ConfigMap was deleted only after the workload, which contradicts that it is untouched.
    obtain ⟨before, later, rfl⟩ := List.append_of_mem hmem
    obtain ⟨earlier, hearlier, hdestroys, hok'⟩ :=
      hdeletes before event later rfl hok name hcall object hfirst hruns hown hname
    exact hok' (huntouched earlier (List.mem_append_left _ hearlier) hdestroys)
  · exact (hfinds name hname).2

/-- A workload of the first store that found its ConfigMap deleted was itself replaced or deleted
before, if all workloads find what they mount. -/
theorem exists_destroyed {before : List (Event Store)} {event : Event Store}
    (hkept : Kept topology planned s (before ++ [event]) event.after)
    (hanswer : server.Answers t event.call event.answer event.after)
    (hmounted : Mounted topology event.after) (hok : ¬ event.Failed) {name : String}
    (hcall : event.call = .delete ⟨.configMap, name⟩) {object : Resource} (hobject : object ∈ s)
    (hruns : object.runsNode = true) (hown : object.ownedBy topology = true)
    (hname : name ∈ object.mounts) :
    ∃ earlier ∈ before, earlier.call.Destroys object.key ∧ ¬ earlier.Failed := by
  refine Classical.byContradiction fun hnone => ?_
  -- Then the workload is still there, without the ConfigMap that it mounts.
  have huntouched : ∀ earlier ∈ before ++ [event], earlier.call.Destroys object.key →
      earlier.Failed := by
    refine List.forall_mem_append.2 ⟨fun earlier hearlier hdestroys => ?_, ?_⟩
    · exact Classical.byContradiction fun hok' => hnone ⟨earlier, hearlier, hdestroys, hok'⟩
    · refine List.forall_mem_singleton.2 fun hdestroys => ?_
      rw [hcall] at hdestroys
      have hkind : object.kind = .configMap := (congrArg Key.kind hdestroys).symm
      simp [Resource.runsNode, hkind] at hruns
  obtain ⟨config, hconfig⟩ :=
    hmounted object (hkept.untouched object hobject huntouched) hruns hown name hname
  have hgone : event.after = t.erase ⟨.configMap, name⟩ := by
    rcases hanswer.effect with ⟨-, hfailed⟩ | ⟨-, ⟨_, _, _, -, ⟨hcreate, -⟩ | hreplace⟩ | hdelete⟩
    · exact absurd (hfailed (by rw [hcall]; rfl)) hok
    · cases hcall.symm.trans hcreate
    · cases hcall.symm.trans hreplace
    · obtain ⟨gone, hgone, hafter⟩ := hdelete
      rw [hafter, Call.delete.inj (hgone.symm.trans hcall)]
  rw [hgone] at hconfig
  simp at hconfig

/-- **Exactly when a run leaves nothing dangling.**  From a store in which every workload of the
topology finds what it mounts, and whatever calls fail: after each call every workload finds what it
mounts, if and only if every ConfigMap that was deleted was deleted after the workloads that mounted
it had been replaced or deleted. -/
theorem mounted_iff {t : Topology} {c : Classifier} {namespaceName : String}
    {rendered : SortedMap String RenderedNode} {events : List (Event Store)}
    {q : Program (Except PassError PassReport)} (hrender : t.render c namespaceName = .ok rendered)
    (hmounts : ∀ {sent stored}, server.stores sent stored → stored.mounts = sent.mounts)
    (hs : Mounted t.name s)
    (hreach : (reconcileWorkloads t.name namespaceName
      (rendered.map fun _ node => node.plan)).Reaches server.Answers s events q u) :
    (∀ event ∈ events, Mounted t.name event.after) ↔ DeletesUnmounted t.name s events := by
  have hmeets := @meets_reconcileWorkloads server t.name s namespaceName _
    (Topology.dependsOnMounts_of_render hrender)
    fun entry hmem => (Topology.wellFormed_of_render hrender entry hmem).closed
  -- What has been kept up at the end of the part of the run that a call closes.
  have hkept : ∀ {before later : List (Event Store)} {event : Event Store},
      events = before ++ event :: later → ∃ v, server.Answers v event.call event.answer event.after ∧
        Kept t.name ((NodePlan.allObjects (rendered.map fun _ node => node.plan)).map
          PlannedObject.key) s (before ++ [event]) event.after := by
    rintro before later event rfl
    obtain ⟨r, v, hbefore, hrest⟩ := hreach.split
    cases hrest with
    | call hanswer hlater =>
      have hrun := kept_of_reaches hmounts (hbefore.append (.call hanswer (.here _ _))) hmeets
        (@Kept.start t.name _ s)
      exact ⟨v, hanswer, by simpa using hrun⟩
  constructor
  · intro hmounted before event later hsplit hok name hcall object hobject hruns hown hname
    obtain ⟨v, hanswer, hkept⟩ := hkept hsplit
    have hafter := hmounted event (hsplit ▸ List.mem_append_right _ List.mem_cons_self)
    exact exists_destroyed hkept hanswer hafter hok hcall hobject hruns hown hname
  · intro hdeletes event hmem
    obtain ⟨before, later, hsplit⟩ := List.append_of_mem hmem
    obtain ⟨v, -, hkept⟩ := hkept hsplit
    rw [hsplit, List.append_cons] at hdeletes
    exact mounted_of_kept hs hkept (deletesUnmounted_of_append hdeletes)

/-! A node loses its startup configuration, and its Deployment cannot be replaced. -/

def configuredNode : Topology :=
  (Topology.ofName "lab").withNode "r1"
    { NodeDefinition.ofImage "router" "frr" with startupConfig := some "hostname r1" }

/-- All replacing is refused. -/
def refuseReplace : Call → Option ClusterError
  | .replace _ => some (.conflict "the object has been modified")
  | _ => none

/-- The run of the next pass over what was rendered before, and whether its ConfigMap is deleted
under the Deployment. -/
theorem dangling_run : ∃ rendered s events result u,
    oneNode.render .bare "lab" = .ok rendered ∧ Mounted "lab" s ∧
      (reconcileWorkloads "lab" "lab" (rendered.map fun _ node => node.plan)).Reaches
        (Server.plain fun _ call error => refuseReplace call = some error).Answers s events
        (.done result) u ∧
      ∃ event ∈ events, ¬ Mounted "lab" event.after := by
  have hcheck : (match configuredNode.render .bare "lab", oneNode.render .bare "lab" with
      | .ok earlier, .ok later =>
        let s := Store.ofList ((NodePlan.allObjects (earlier.map fun _ node => node.plan)).map
          PlannedObject.object)
        let run := (reconcileWorkloads "lab" "lab" (later.map fun _ node => node.plan)).trace
          (Server.respond refuseReplace) s
        decide (Mounted "lab" s) && run.1.any fun event => !decide (Mounted "lab" event.after)
      | _, _ => false) = true := by decide +kernel
  cases hearlier : configuredNode.render .bare "lab" with
  | error e => simp [hearlier] at hcheck
  | ok earlier =>
    cases hlater : oneNode.render .bare "lab" with
    | error e => simp [hearlier, hlater] at hcheck
    | ok later =>
      simp only [hearlier, hlater, Bool.and_eq_true, decide_eq_true_eq, List.any_eq_true,
        Bool.not_eq_true', decide_eq_false_iff_not] at hcheck
      exact ⟨later, _, _, _, _, rfl, hcheck.1, reaches_trace (Server.answers_respond refuseReplace)
        _ _, hcheck.2⟩

theorem mounts_of_plain {refuses : Store → Call → ClusterError → Prop} {sent stored : Resource}
    (h : (Server.plain refuses).stores sent stored) : stored.mounts = sent.mounts := by
  obtain ⟨version, rfl⟩ := h
  rfl

/-- The ConfigMap is deleted while the Deployment that mounts it is still as it was. -/
theorem failed_replace_deletes_mounted : ∃ rendered s events result u,
    oneNode.render .bare "lab" = .ok rendered ∧ Mounted "lab" s ∧
      (reconcileWorkloads "lab" "lab" (rendered.map fun _ node => node.plan)).Reaches
        (Server.plain fun _ call error => refuseReplace call = some error).Answers s events
        (.done result) u ∧
      ¬ DeletesUnmounted "lab" s events := by
  obtain ⟨rendered, s, events, result, u, hrender, hs, hreach, event, hmem, hdangling⟩ := dangling_run
  refine ⟨rendered, s, events, result, u, hrender, hs, hreach, fun hdeletes => hdangling ?_⟩
  exact (mounted_iff hrender mounts_of_plain hs hreach).2 hdeletes event hmem

/-- **A failed replace leaves a workload dangling**: not every run keeps what is mounted. -/
theorem mounted_not_kept : ¬ ∀ (t : Topology) (c : Classifier) (namespaceName : String)
    (rendered : SortedMap String RenderedNode) (server : Server) (s : Store)
    (events : List (Event Store)) (q : Program (Except PassError PassReport)) (u : Store),
    t.render c namespaceName = .ok rendered →
      (∀ sent stored, server.stores sent stored → stored.mounts = sent.mounts) →
        Mounted t.name s →
          (reconcileWorkloads t.name namespaceName
            (rendered.map fun _ node => node.plan)).Reaches server.Answers s events q u →
            ∀ event ∈ events, Mounted t.name event.after := by
  intro hkept
  obtain ⟨rendered, s, events, result, u, hrender, hs, hreach, event, hmem, hdangling⟩ := dangling_run
  exact hdangling (hkept oneNode .bare "lab" rendered _ s events _ u hrender
    (fun _ _ => mounts_of_plain) hs hreach event hmem)

end Mounts

end NetLab
