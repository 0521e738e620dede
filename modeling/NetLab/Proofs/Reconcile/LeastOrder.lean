import Mathlib.Data.List.Nodup
import NetLab.Proofs.Cluster.Plain
import NetLab.Proofs.Reconcile.Order

/-!
# The least order

Which orders of a group respect its dependencies (`IsOrder`) can be said without a word on how one
is found.  `applyOrder?` finds the least of them by the places that the objects have in the group
(`IsLeastOrder`), and finds none exactly if objects of the group depend on each other in a cycle.

An order is a proof that there is no cycle: along a dependency within the group the place in the
order goes down (`IsOrder.idxOf_lt`).  The order that is found is the least because each time the
first object is placed that can be.  Any other order has there an object that can be placed too, so
either the same one or one of a later place (`Placing.eq_or_lt`), and no objects have to be
exchanged.
-/

namespace NetLab.PlannedObject

open Cluster Kube

/-! ## Orders of a group -/

/-- An order of the objects in which each comes after those of them that it depends on. -/
structure IsOrder (objects order : List PlannedObject) : Prop where
  perm : order.Perm objects
  exists_before : ∀ before planned after, order = before ++ planned :: after →
    ∀ key ∈ planned.dependencies, key ∈ objects.map PlannedObject.key →
      ∃ earlier ∈ before, earlier.key = key

/-- The places that the objects of an order have in the group. -/
def places (objects order : List PlannedObject) : List Nat := order.map objects.idxOf

/-- The order that comes before every other one: where another one first differs from it, an object
of a later place stands there. -/
structure IsLeastOrder (objects order : List PlannedObject) : Prop
    extends IsOrder objects order where
  least : ∀ other, IsOrder objects other →
    other = order ∨ places objects order < places objects other

/-- One object of the group depends on one of the group, be it another one or itself. -/
def NeedsWithin (objects : List PlannedObject) (key other : Key) : Prop :=
  Needs objects key other ∧ other ∈ objects.map PlannedObject.key

variable {objects order : List PlannedObject}

theorem inOrder_of_exists_before {group placed : List Key}
    (h : ∀ before planned after, order = before ++ planned :: after →
      ∀ key ∈ planned.dependencies, key ∈ group →
        key ∈ placed ∨ ∃ earlier ∈ before, earlier.key = key) :
    InOrder group placed order := by
  induction order generalizing placed with
  | nil => trivial
  | cons first rest ih =>
    constructor
    · refine List.all_eq_true.2 fun key hkey => ?_
      by_cases hgroup : key ∈ group
      · rcases h [] first rest rfl key hkey hgroup with hplaced | ⟨_, hmem, _⟩
        · simp [hplaced]
        · cases hmem
      · simp [hgroup]
    · refine ih ?_
      rintro before planned after rfl key hkey hgroup
      rcases h (first :: before) planned after rfl key hkey hgroup with
        hplaced | ⟨earlier, hmem, rfl⟩
      · exact Or.inl (List.mem_cons_of_mem _ hplaced)
      · rcases List.mem_cons.1 hmem with rfl | hmem
        · exact Or.inl List.mem_cons_self
        · exact Or.inr ⟨earlier, hmem, rfl⟩

theorem isOrder_iff :
    IsOrder objects order ↔ order.Perm objects ∧ InOrder (objects.map key) [] order := by
  constructor
  · intro h
    refine ⟨h.perm, inOrder_of_exists_before fun before planned after hsplit key hkey hgroup => ?_⟩
    exact Or.inr (h.exists_before before planned after hsplit key hkey hgroup)
  · rintro ⟨hperm, hinOrder⟩
    refine ⟨hperm, ?_⟩
    rintro before planned after rfl key hkey hgroup
    exact (hinOrder.mem_before hkey hgroup).resolve_left List.not_mem_nil

/-! ## Cycles -/

/-- A dependency chain that ends in the group stays in it. -/
theorem needsWithin_of_needs {key other : Key} (h : Relation.TransGen (Needs objects) key other)
    (hgroup : other ∈ objects.map PlannedObject.key) :
    Relation.TransGen (NeedsWithin objects) key other := by
  induction h with
  | single hneeds => exact .single ⟨hneeds, hgroup⟩
  | tail _ hneeds ih =>
    obtain ⟨planned, hmem, rfl, hdependency⟩ := hneeds
    exact (ih (List.mem_map_of_mem hmem)).tail ⟨⟨planned, hmem, rfl, hdependency⟩, hgroup⟩

theorem acyclic_iff :
    Acyclic objects ↔ ∀ key, ¬ Relation.TransGen (NeedsWithin objects) key key := by
  constructor
  · exact fun h key hcycle => h key (Relation.TransGen.mono (fun _ _ hneeds => hneeds.1) _ _ hcycle)
  · intro h key hcycle
    obtain ⟨_, ⟨planned, hmem, rfl, -⟩, -⟩ := Relation.TransGen.head'_iff.1 hcycle
    exact h _ (needsWithin_of_needs hcycle (List.mem_map_of_mem hmem))

/-- In an order of objects with keys of their own, what an object needs stands before it. -/
theorem IsOrder.idxOf_lt (h : IsOrder objects order)
    (hdistinct : (objects.map PlannedObject.key).Nodup) {key other : Key}
    (hneeds : NeedsWithin objects key other) :
    (order.map PlannedObject.key).idxOf other < (order.map PlannedObject.key).idxOf key := by
  obtain ⟨⟨planned, hmem, rfl, hdependency⟩, hgroup⟩ := hneeds
  have hnodup : (order.map PlannedObject.key).Nodup := (h.perm.map _).nodup_iff.2 hdistinct
  obtain ⟨before, after, rfl⟩ := List.append_of_mem (h.perm.mem_iff.2 hmem)
  obtain ⟨earlier, hearlier, rfl⟩ := h.exists_before before planned after rfl _ hdependency hgroup
  have hother : earlier.key ∈ before.map PlannedObject.key := List.mem_map_of_mem hearlier
  rw [List.map_append, List.map_cons] at hnodup ⊢
  have hfresh : planned.key ∉ before.map PlannedObject.key := fun hbefore =>
    List.disjoint_of_nodup_append hnodup hbefore List.mem_cons_self
  rw [List.idxOf_append_of_mem hother, List.idxOf_append_of_notMem hfresh]
  exact Nat.lt_add_right _ (List.idxOf_lt_length_of_mem hother)

/-- Objects with keys of their own that can be ordered have no cycle. -/
theorem IsOrder.not_cycle (h : IsOrder objects order)
    (hdistinct : (objects.map PlannedObject.key).Nodup) (key : Key) :
    ¬ Relation.TransGen (NeedsWithin objects) key key := by
  intro hcycle
  have hdown : ∀ {other}, Relation.TransGen (NeedsWithin objects) key other →
      (order.map PlannedObject.key).idxOf other < (order.map PlannedObject.key).idxOf key := by
    intro other hchain
    induction hchain with
    | single hneeds => exact h.idxOf_lt hdistinct hneeds
    | tail _ hneeds ih => exact Nat.lt_trans (h.idxOf_lt hdistinct hneeds) ih
  exact absurd (hdown hcycle) (Nat.lt_irrefl _)

/-! ## The first one that can be placed -/

/-- If the objects stand by their places, the order in which they are placed one after the other is
no later than any other one. -/
theorem Placing.eq_or_lt {place : PlannedObject → Nat} {group placed : List Key}
    {remaining other : List PlannedObject} (h : Placing group placed remaining order)
    (hplaces : remaining.Pairwise fun a b => place a < place b) (hperm : other.Perm remaining)
    (hinOrder : InOrder group placed other) :
    other = order ∨ order.map place < other.map place := by
  induction h generalizing other with
  | nil _ => exact Or.inl hperm.eq_nil
  | @cons placed before after order next hbefore _ _ ih =>
    cases other with
    | nil => simp at hperm
    | cons first rest =>
      have hfirst : first ∈ before ++ next :: after := hperm.mem_iff.1 List.mem_cons_self
      rcases List.mem_append.1 hfirst with hmem | hmem
      · -- What stands before the object that was taken cannot be placed.
        exact absurd hinOrder.1 (by simp [hbefore first hmem])
      · rcases List.mem_cons.1 hmem with rfl | hmem
        · have hrest : rest.Perm (before ++ after) := (hperm.trans List.perm_middle).cons_inv
          have hsorted : (before ++ after).Pairwise fun a b => place a < place b :=
            hplaces.sublist ((List.sublist_cons_self _ _).append_left _)
          rcases ih hsorted hrest hinOrder.2 with rfl | hless
          · exact Or.inl rfl
          · exact Or.inr (List.cons_lt_cons_iff.2 (Or.inr ⟨rfl, hless⟩))
        · have hnext : (next :: after).Pairwise fun a b => place a < place b :=
            (List.pairwise_append.1 hplaces).2.1
          have hless : place next < place first := (List.pairwise_cons.1 hnext).1 first hmem
          exact Or.inr (List.cons_lt_cons_iff.2 (Or.inl hless))

theorem pairwise_idxOf (hdistinct : (objects.map key).Nodup) :
    objects.Pairwise fun a b => objects.idxOf a < objects.idxOf b := by
  have hnodup : objects.Nodup := hdistinct.of_map
  refine List.pairwise_iff_getElem.2 fun i j hi hj hij => ?_
  rwa [hnodup.idxOf_getElem i hi, hnodup.idxOf_getElem j hj]

theorem isLeastOrder_of_applyOrder? (hdistinct : (objects.map key).Nodup)
    (h : applyOrder? objects = some order) : IsLeastOrder objects order where
  toIsOrder := isOrder_iff.2 ⟨perm_of_applyOrder? h, inOrder_of_applyOrder? h⟩
  least _ hother :=
    (placing_of_orderFrom? h).eq_or_lt (pairwise_idxOf hdistinct) hother.perm
      (isOrder_iff.1 hother).2

/-- There is one least order at most. -/
theorem IsLeastOrder.eq {other : List PlannedObject} (h : IsLeastOrder objects order)
    (hother : IsLeastOrder objects other) : order = other := by
  rcases h.least other hother.toIsOrder with rfl | hless
  · rfl
  · rcases hother.least order h.toIsOrder with rfl | hless'
    · rfl
    · exact absurd hless' (List.lt_asymm hless)

/-- **Applying follows the least order.**  For objects with keys of their own an order is found
exactly if there is no cycle of dependencies within the group; it is the least of the orders in
which every object comes after those of the group that it depends on; and a group that is such an
order already is left as it is. -/
theorem applied_in_least_order (hdistinct : (objects.map key).Nodup) :
    ((∃ order, applyOrder? objects = some order) ↔
      ∀ key, ¬ Relation.TransGen (NeedsWithin objects) key key) ∧
    (∀ order, applyOrder? objects = some order ↔ IsLeastOrder objects order) ∧
    (IsOrder objects objects → applyOrder? objects = some objects) := by
  have hfound : ∀ {order}, IsOrder objects order → ∃ order, applyOrder? objects = some order :=
    fun h => exists_applyOrder?_of_acyclic (acyclic_iff.2 (h.not_cycle hdistinct))
  refine ⟨⟨?_, ?_⟩, fun order => ⟨isLeastOrder_of_applyOrder? hdistinct, fun h => ?_⟩, fun h => ?_⟩
  · rintro ⟨order, horder⟩
    exact (isLeastOrder_of_applyOrder? hdistinct horder).not_cycle hdistinct
  · exact fun hacyclic => exists_applyOrder?_of_acyclic (acyclic_iff.2 hacyclic)
  · obtain ⟨found, hfind⟩ := hfound h.toIsOrder
    rw [hfind, (isLeastOrder_of_applyOrder? hdistinct hfind).eq h]
  · exact applyOrder?_eq_self (isOrder_iff.1 h).2

/-- A Service that needs its Deployment (twice) and something that is elsewhere, an object on its
own, the Deployment, and the ConfigMap that the Deployment needs. -/
def shuffled : List PlannedObject := [
  ⟨labelled .service "web" "lab",
    [⟨.deployment, "web"⟩, ⟨.deployment, "web"⟩, ⟨.configMap, "shared"⟩]⟩,
  .free (labelled .service "spare" "lab"),
  ⟨labelled .deployment "web" "lab", [⟨.configMap, "web"⟩]⟩,
  .free (labelled .configMap "web" "lab")]

theorem shuffled_in_least_order : (shuffled.map key).Nodup ∧ ∃ order,
    applyOrder? shuffled = some order ∧ IsLeastOrder shuffled order ∧
    places shuffled order = [1, 3, 2, 0] := by
  have hdistinct : (shuffled.map key).Nodup := by decide +kernel
  obtain ⟨-, hleast, -⟩ := applied_in_least_order hdistinct
  have hplaces : (applyOrder? shuffled).map (places shuffled) = some [1, 3, 2, 0] := by
    decide +kernel
  obtain ⟨order, horder, hplaces⟩ := Option.map_eq_some_iff.1 hplaces
  exact ⟨hdistinct, order, horder, (hleast order).1 horder, hplaces⟩

end NetLab.PlannedObject
