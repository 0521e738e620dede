import Mathlib.Logic.Relation
import NetLab.Reconcile.Order

/-!
# Facts about the order of applying

The objects of an order are placed one after the other (`Placing`).  So it has exactly the objects
that were to be ordered (`perm_of_applyOrder?`), each after those of them that it depends on
(`inOrder_of_applyOrder?`), and a list in which that is so is its own order
(`applyOrder?_eq_self`).  There is an order unless dependencies form a cycle
(`exists_applyOrder?_of_acyclic`): among the objects that are left one always needs none of the
others.
-/

namespace NetLab

open Kube

variable {α : Type}

/-- What is taken passes the test, and nothing that stands before it does. -/
theorem split_of_takeFirst? {test : α → Bool} {items others : List α} {found : α}
    (h : takeFirst? test items = some (found, others)) :
    ∃ before after, items = before ++ found :: after ∧ others = before ++ after ∧
      test found = true ∧ ∀ item ∈ before, test item = false := by
  induction items generalizing others with
  | nil => simp [takeFirst?] at h
  | cons item rest ih =>
    simp only [takeFirst?] at h
    split at h
    · rename_i htest
      obtain ⟨rfl, rfl⟩ := by simpa using h
      exact ⟨[], rest, rfl, rfl, htest, List.forall_mem_nil _⟩
    · rename_i htest
      obtain ⟨⟨found', others'⟩, hrest, hpair⟩ := Option.map_eq_some_iff.1 h
      obtain ⟨rfl, rfl⟩ := by simpa using hpair
      obtain ⟨before, after, rfl, rfl, hfound, hbefore⟩ := ih hrest
      exact ⟨item :: before, after, rfl, rfl, hfound,
        List.forall_mem_cons.2 ⟨Bool.eq_false_iff.2 htest, hbefore⟩⟩

theorem perm_of_takeFirst? {test : α → Bool} {items others : List α} {found : α}
    (h : takeFirst? test items = some (found, others)) : (found :: others).Perm items := by
  obtain ⟨before, after, rfl, rfl, -, -⟩ := split_of_takeFirst? h
  exact List.perm_middle.symm

/-- Something is taken if anything passes the test. -/
theorem takeFirst?_ne_none {test : α → Bool} {items : List α} {item : α} (hmem : item ∈ items)
    (htest : test item = true) : takeFirst? test items ≠ none := by
  induction items with
  | nil => cases hmem
  | cons first rest ih =>
    simp only [takeFirst?]
    split
    · exact Option.some_ne_none _
    · rename_i hfirst
      rcases List.mem_cons.1 hmem with rfl | hrest
      · exact absurd htest hfirst
      · simpa using ih hrest

/-- In a list some item is below no other one. -/
theorem exists_maximal {below : α → α → Prop} (htrans : ∀ {a b c}, below a b → below b c → below a c)
    (hirrefl : ∀ a, ¬ below a a) {items : List α} (hne : items ≠ []) :
    ∃ a ∈ items, ∀ b ∈ items, ¬ below a b := by
  induction items with
  | nil => exact absurd rfl hne
  | cons first rest ih =>
    by_cases hrest : rest = []
    · subst hrest
      exact ⟨first, List.mem_cons_self, by simpa using hirrefl first⟩
    · obtain ⟨a, hmem, hmax⟩ := ih hrest
      by_cases hfirst : below a first
      · refine ⟨first, List.mem_cons_self, List.forall_mem_cons.2 ⟨hirrefl first, ?_⟩⟩
        exact fun b hb hbelow => hmax b hb (htrans hfirst hbelow)
      · exact ⟨a, List.mem_cons_of_mem _ hmem, List.forall_mem_cons.2 ⟨hfirst, hmax⟩⟩

namespace PlannedObject

theorem orderFrom?_nil (group placed : List Key) : orderFrom? group placed [] = some [] := by
  rw [orderFrom?]
  rfl

/-- While objects are left, the first one that can be placed is followed by the order of the
others. -/
theorem orderFrom?_of_ne_nil {group placed : List Key} {remaining : List PlannedObject}
    (hne : remaining ≠ []) :
    orderFrom? group placed remaining =
      (takeFirst? (isPlaceable group placed) remaining).bind fun (next, others) =>
        (orderFrom? group (next.key :: placed) others).map (next :: ·) := by
  rw [orderFrom?, if_neg (by simpa using hne)]
  split
  · rename_i hnone
    rw [hnone]
    rfl
  · rename_i next others htake
    rw [htake]
    rfl

/-- The remaining objects in the order in which they are placed: each time the first one that can
be. -/
inductive Placing (group : List Key) :
    (placed : List Key) → (remaining order : List PlannedObject) → Prop where
  | nil (placed : List Key) : Placing group placed [] []
  | cons {placed : List Key} {before after order : List PlannedObject} {next : PlannedObject}
      (hbefore : ∀ planned ∈ before, isPlaceable group placed planned = false)
      (hnext : isPlaceable group placed next = true)
      (hrest : Placing group (next.key :: placed) (before ++ after) order) :
      Placing group placed (before ++ next :: after) (next :: order)

theorem placing_of_orderFrom? {group placed : List Key} {remaining order : List PlannedObject}
    (h : orderFrom? group placed remaining = some order) : Placing group placed remaining order := by
  induction hn : remaining.length using Nat.strongRecOn generalizing placed remaining order with
  | ind n ih =>
    by_cases hne : remaining = []
    · subst hne
      rw [orderFrom?_nil] at h
      obtain rfl := Option.some.inj h
      exact .nil placed
    · rw [orderFrom?_of_ne_nil hne] at h
      obtain ⟨⟨next, others⟩, htake, hmap⟩ := Option.bind_eq_some_iff.1 h
      obtain ⟨tail, htail, rfl⟩ := Option.map_eq_some_iff.1 hmap
      have hlt : others.length < n := hn ▸ length_of_takeFirst? htake
      obtain ⟨before, after, rfl, rfl, hnext, hbefore⟩ := split_of_takeFirst? htake
      exact .cons hbefore hnext (ih _ hlt htail rfl)

theorem Placing.perm {group placed : List Key} {remaining order : List PlannedObject}
    (h : Placing group placed remaining order) : order.Perm remaining := by
  induction h with
  | nil _ => exact List.Perm.nil
  | cons _ _ _ ih => exact (ih.cons _).trans List.perm_middle.symm

/-- **An order is a permutation** of the objects. -/
theorem perm_of_applyOrder? {objects order : List PlannedObject}
    (h : applyOrder? objects = some order) : order.Perm objects :=
  (placing_of_orderFrom? h).perm

/-- Every object comes after those of the group that it depends on; `placed` come before all. -/
def InOrder (group placed : List Key) : List PlannedObject → Prop
  | [] => True
  | planned :: rest =>
    isPlaceable group placed planned = true ∧ InOrder group (planned.key :: placed) rest

theorem orderFrom?_eq_self {group placed : List Key} {objects : List PlannedObject}
    (h : InOrder group placed objects) : orderFrom? group placed objects = some objects := by
  induction objects generalizing placed with
  | nil => exact orderFrom?_nil group placed
  | cons planned rest ih =>
    have htake : takeFirst? (isPlaceable group placed) (planned :: rest) = some (planned, rest) :=
      if_pos h.1
    simp only [orderFrom?_of_ne_nil (List.cons_ne_nil planned rest), htake, Option.bind_some,
      ih h.2, Option.map_some]

/-- What an object of an ordered list depends on in the group stands before it. -/
theorem InOrder.mem_before {group placed : List Key} {before rest : List PlannedObject}
    {planned : PlannedObject} (h : InOrder group placed (before ++ planned :: rest)) {key : Key}
    (hkey : key ∈ planned.dependencies) (hgroup : key ∈ group) :
    key ∈ placed ∨ ∃ earlier ∈ before, earlier.key = key := by
  induction before generalizing placed with
  | nil =>
    have hplaced := List.all_eq_true.1 h.1 key hkey
    exact Or.inl (by simpa [hgroup] using hplaced)
  | cons first before ih =>
    rcases ih h.2 with hplaced | ⟨earlier, hmem, heq⟩
    · rcases List.mem_cons.1 hplaced with rfl | hplaced
      · exact Or.inr ⟨first, List.mem_cons_self, rfl⟩
      · exact Or.inl hplaced
    · exact Or.inr ⟨earlier, List.mem_cons_of_mem _ hmem, heq⟩

theorem Placing.inOrder {group placed : List Key} {remaining order : List PlannedObject}
    (h : Placing group placed remaining order) : InOrder group placed order := by
  induction h with
  | nil _ => trivial
  | cons _ hnext _ ih => exact ⟨hnext, ih⟩

/-- **In an order every object comes after those of the group that it depends on.** -/
theorem inOrder_of_applyOrder? {objects order : List PlannedObject}
    (h : applyOrder? objects = some order) : InOrder (objects.map key) [] order :=
  (placing_of_orderFrom? h).inOrder

/-- One object depends on the other. -/
def Needs (objects : List PlannedObject) (key other : Key) : Prop :=
  ∃ planned ∈ objects, planned.key = key ∧ other ∈ planned.dependencies

/-- No dependencies lead from an object back to it. -/
def Acyclic (objects : List PlannedObject) : Prop :=
  ∀ key, ¬ Relation.TransGen (Needs objects) key key

/-- Among what is left of a group without cycles, something can be placed. -/
theorem Acyclic.exists_placeable {objects remaining : List PlannedObject} {placed : List Key}
    (h : Acyclic objects) (hsub : ∀ planned ∈ remaining, planned ∈ objects)
    (hleft : ∀ other ∈ objects.map key, other ∈ placed ∨ other ∈ remaining.map key)
    (hne : remaining ≠ []) :
    ∃ planned ∈ remaining, isPlaceable (objects.map key) placed planned = true := by
  have hkeys : remaining.map key ≠ [] := fun hnil => hne (List.map_eq_nil_iff.1 hnil)
  -- An object that needs none of those that are left, directly or not, can be placed.
  obtain ⟨_, hmem, hmax⟩ := exists_maximal Relation.TransGen.trans h hkeys
  obtain ⟨planned, hplanned, rfl⟩ := List.mem_map.1 hmem
  refine ⟨planned, hplanned, List.all_eq_true.2 fun other hother => ?_⟩
  by_cases hgroup : other ∈ objects.map key
  · rcases hleft other hgroup with hplaced | hremaining
    · simp [hplaced]
    · exact absurd (.single ⟨planned, hsub planned hplanned, rfl, hother⟩) (hmax other hremaining)
  · simpa using Or.inl fun planned hmem heq => hgroup (List.mem_map.2 ⟨planned, hmem, heq⟩)

theorem exists_orderFrom?_of_acyclic {objects remaining : List PlannedObject} {placed : List Key}
    (h : Acyclic objects) (hsub : ∀ planned ∈ remaining, planned ∈ objects)
    (hleft : ∀ other ∈ objects.map key, other ∈ placed ∨ other ∈ remaining.map key) :
    ∃ order, orderFrom? (objects.map key) placed remaining = some order := by
  induction hn : remaining.length using Nat.strongRecOn generalizing placed remaining with
  | ind n ih =>
    by_cases hne : remaining = []
    · subst hne
      exact ⟨[], orderFrom?_nil _ _⟩
    · obtain ⟨planned, hplanned, hplaceable⟩ := h.exists_placeable hsub hleft hne
      obtain ⟨⟨next, others⟩, htake⟩ :=
        Option.ne_none_iff_exists'.1 (takeFirst?_ne_none hplanned hplaceable)
      have hperm := perm_of_takeFirst? htake
      have hothers : ∀ planned ∈ others, planned ∈ objects := fun planned hmem =>
        hsub planned (hperm.mem_iff.1 (List.mem_cons_of_mem _ hmem))
      have hnext : ∀ other ∈ objects.map key,
          other ∈ next.key :: placed ∨ other ∈ others.map key := by
        intro other hgroup
        rcases hleft other hgroup with hplaced | hremaining
        · exact Or.inl (List.mem_cons_of_mem _ hplaced)
        · rw [← (hperm.map key).mem_iff, List.map_cons, List.mem_cons] at hremaining
          rcases hremaining with rfl | hothers
          · exact Or.inl List.mem_cons_self
          · exact Or.inr hothers
      obtain ⟨order, horder⟩ :=
        ih others.length (hn ▸ length_of_takeFirst? htake) hothers hnext rfl
      refine ⟨next :: order, ?_⟩
      simp only [orderFrom?_of_ne_nil hne, htake, Option.bind_some, horder, Option.map_some]

/-- **Without a cycle there is an order.** -/
theorem exists_applyOrder?_of_acyclic {objects : List PlannedObject} (h : Acyclic objects) :
    ∃ order, applyOrder? objects = some order :=
  exists_orderFrom?_of_acyclic h (fun _ hmem => hmem) fun _ hmem => Or.inr hmem

/-- Objects that depend on nothing are in order. -/
theorem inOrder_of_free {group placed : List Key} {objects : List PlannedObject}
    (h : ∀ planned ∈ objects, planned.dependencies = []) : InOrder group placed objects := by
  induction objects generalizing placed with
  | nil => trivial
  | cons first rest ih =>
    obtain ⟨hfirst, hrest⟩ := List.forall_mem_cons.1 h
    exact ⟨by simp [isPlaceable, hfirst], ih hrest⟩

/-- A list that is in order already is left as it is. -/
theorem applyOrder?_eq_self {objects : List PlannedObject}
    (h : InOrder (objects.map key) [] objects) : applyOrder? objects = some objects :=
  orderFrom?_eq_self h

end PlannedObject

end NetLab
