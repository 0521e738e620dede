/-!
# Maps in key order

A `SortedMap κ α` is a finite map kept as the list of its entries in strictly ascending key
order.  Strict order makes the list canonical: two maps with the same entries are the same
value (`SortedMap.ext_get?`), so equality of maps is equality of contents.  Everything the
library prints or visits "by name" is visited in this order.

The list operations are in `Assoc`, because the members of a JSON object are kept the same way
without carrying the proof.  `find?_insert` and `find?_erase` say what each write does to every
lookup; `ascending_insert` and `ascending_erase` that it keeps the order.
-/

namespace NetLab

variable {κ α β : Type} [Ord κ]

/-! ## Association lists in key order -/

namespace Assoc

/-- Keys strictly ascend from left to right. -/
def Ascending (entries : List (κ × α)) : Prop :=
  entries.Pairwise fun a b => compare a.1 b.1 = .lt

/-- Binds `key` to `value`, in its place, replacing an earlier binding. -/
def insert (key : κ) (value : α) : List (κ × α) → List (κ × α)
  | [] => [(key, value)]
  | (k, v) :: rest =>
    match compare key k with
    | .lt => (key, value) :: (k, v) :: rest
    | .eq => (key, value) :: rest
    | .gt => (k, v) :: insert key value rest

/-- The value bound to `key`. -/
def find? (key : κ) : List (κ × α) → Option α
  | [] => none
  | (k, v) :: rest => if compare key k = .eq then some v else find? key rest

/-- Removes the binding of `key`. -/
def erase (key : κ) (entries : List (κ × α)) : List (κ × α) :=
  entries.filter fun entry => compare key entry.1 != .eq

/-- Binds the entries one after the other, so that of two with one key the later counts. -/
def ofList (entries : List (κ × α)) : List (κ × α) :=
  entries.foldl (fun acc entry => insert entry.1 entry.2 acc) []

theorem mem_insert {key : κ} {value : α} {entries : List (κ × α)} {entry : κ × α}
    (h : entry ∈ insert key value entries) : entry = (key, value) ∨ entry ∈ entries := by
  induction entries with
  | nil => simpa [insert] using h
  | cons head rest ih =>
    obtain ⟨k, v⟩ := head
    simp only [insert] at h
    split at h
    · simpa using h
    · rcases List.mem_cons.1 h with h | h
      · exact .inl h
      · exact .inr (List.mem_cons_of_mem _ h)
    · rcases List.mem_cons.1 h with h | h
      · exact .inr (h ▸ List.mem_cons_self)
      · exact (ih h).imp_right (List.mem_cons_of_mem _)

theorem mem_foldl_insert {entry : κ × α} {entries acc : List (κ × α)}
    (h : entry ∈ entries.foldl (fun acc entry => insert entry.1 entry.2 acc) acc) :
    entry ∈ acc ∨ entry ∈ entries := by
  induction entries generalizing acc with
  | nil => exact Or.inl h
  | cons head rest ih =>
    rcases ih h with hacc | hrest
    · rcases mem_insert hacc with rfl | hacc
      · exact Or.inr List.mem_cons_self
      · exact Or.inl hacc
    · exact Or.inr (List.mem_cons_of_mem _ hrest)

theorem mem_of_mem_ofList {entry : κ × α} {entries : List (κ × α)} (h : entry ∈ ofList entries) :
    entry ∈ entries :=
  (mem_foldl_insert h).resolve_left List.not_mem_nil

theorem ascending_nil : Ascending ([] : List (κ × α)) := List.Pairwise.nil

theorem ascending_erase {key : κ} {entries : List (κ × α)} (h : Ascending entries) :
    Ascending (erase key entries) :=
  List.Pairwise.filter _ h

theorem find?_eq_none_of_lt {key : κ} {entries : List (κ × α)}
    (h : ∀ entry ∈ entries, compare key entry.1 = .lt) : find? key entries = none := by
  induction entries with
  | nil => rfl
  | cons head rest ih =>
    have hne : compare key head.1 ≠ .eq := by simp [h head List.mem_cons_self]
    simp only [find?, hne, ↓reduceIte]
    exact ih fun entry hmem => h entry (List.mem_cons_of_mem _ hmem)

section Lawful

variable [Std.LawfulEqOrd κ]

theorem ascending_insert [Std.TransOrd κ] {key : κ} {value : α} {entries : List (κ × α)}
    (h : Ascending entries) : Ascending (insert key value entries) := by
  induction entries with
  | nil => exact List.pairwise_singleton _ _
  | cons head rest ih =>
    obtain ⟨k, v⟩ := head
    obtain ⟨hk, hrest⟩ := List.pairwise_cons.1 h
    simp only [insert]
    split
    · rename_i hlt
      refine List.pairwise_cons.2 ⟨fun entry hmem => ?_, h⟩
      rcases List.mem_cons.1 hmem with rfl | hmem
      · exact hlt
      · exact Std.TransCmp.lt_trans hlt (hk entry hmem)
    · rename_i heq
      obtain rfl := Std.LawfulEqCmp.eq_of_compare heq
      exact List.pairwise_cons.2 ⟨hk, hrest⟩
    · rename_i hgt
      refine List.pairwise_cons.2 ⟨fun entry hmem => ?_, ih hrest⟩
      rcases mem_insert hmem with rfl | hmem
      · exact Std.OrientedCmp.lt_of_gt hgt
      · exact hk entry hmem

theorem ascending_ofList [Std.TransOrd κ] (entries : List (κ × α)) : Ascending (ofList entries) := by
  suffices ∀ acc : List (κ × α), Ascending acc →
      Ascending (entries.foldl (fun acc entry => insert entry.1 entry.2 acc) acc) from
    this [] ascending_nil
  intro acc hacc
  induction entries generalizing acc with
  | nil => exact hacc
  | cons entry rest ih => exact ih _ (ascending_insert hacc)

@[simp]
theorem find?_insert (key other : κ) (value : α) (entries : List (κ × α)) :
    find? other (insert key value entries) =
      if compare other key = .eq then some value else find? other entries := by
  induction entries with
  | nil => simp [insert, find?]
  | cons head rest ih =>
    obtain ⟨k, v⟩ := head
    simp only [insert]
    split
    · rfl
    · rename_i heq
      obtain rfl := Std.LawfulEqCmp.eq_of_compare heq
      simp only [find?]
      split <;> rfl
    · rename_i hgt
      simp only [find?, ih]
      by_cases hk : compare other k = .eq
      · obtain rfl := Std.LawfulEqCmp.eq_of_compare hk
        have : compare other key ≠ .eq := by
          intro heq
          obtain rfl := Std.LawfulEqCmp.eq_of_compare heq
          simp at hgt
        simp [this]
      · simp [hk]

@[simp]
theorem find?_erase (key other : κ) (entries : List (κ × α)) :
    find? other (erase key entries) =
      if compare other key = .eq then none else find? other entries := by
  induction entries with
  | nil => simp [erase, find?]
  | cons head rest ih =>
    obtain ⟨k, v⟩ := head
    have herase : erase key ((k, v) :: rest) =
        if compare key k != .eq then (k, v) :: erase key rest else erase key rest := by
      simp only [erase, List.filter_cons]
    rw [herase]
    by_cases hk : compare key k = .eq
    · obtain rfl := Std.LawfulEqCmp.eq_of_compare hk
      simp only [hk, bne_self_eq_false, Bool.false_eq_true, ↓reduceIte, find?, ih]
      split <;> rfl
    · simp only [bne_iff_ne, ne_eq, hk, not_false_eq_true, ↓reduceIte, find?, ih]
      by_cases ho : compare other k = .eq
      · obtain rfl := Std.LawfulEqCmp.eq_of_compare ho
        have : compare other key ≠ .eq := fun heq => by
          obtain rfl := Std.LawfulEqCmp.eq_of_compare heq
          exact hk heq
        simp [this]
      · simp [ho]

theorem mem_of_find? {key : κ} {value : α} {entries : List (κ × α)}
    (h : find? key entries = some value) : (key, value) ∈ entries := by
  induction entries with
  | nil => cases h
  | cons head rest ih =>
    obtain ⟨k, v⟩ := head
    simp only [find?] at h
    split at h
    · rename_i heq
      obtain rfl := Std.LawfulEqCmp.eq_of_compare heq
      obtain rfl := Option.some.inj h
      exact List.mem_cons_self
    · exact List.mem_cons_of_mem _ (ih h)

theorem find?_eq_some_iff {key : κ} {value : α} {entries : List (κ × α)}
    (h : Ascending entries) : find? key entries = some value ↔ (key, value) ∈ entries := by
  induction entries with
  | nil => simp [find?]
  | cons head rest ih =>
    obtain ⟨k, v⟩ := head
    obtain ⟨hk, hrest⟩ := List.pairwise_cons.1 h
    simp only [find?]
    by_cases heq : compare key k = .eq
    · obtain rfl := Std.LawfulEqCmp.eq_of_compare heq
      have hnot : (key, value) ∉ rest := fun hmem => by simpa using hk _ hmem
      simp [hnot, eq_comm]
    · have hne : key ≠ k := fun he => heq (by subst he; simp)
      simp [heq, hne, ih hrest]

/-- Lookups determine the list. -/
theorem eq_of_find?_eq [Std.TransOrd κ] {xs ys : List (κ × α)} (hx : Ascending xs) (hy : Ascending ys)
    (h : ∀ key, find? key xs = find? key ys) : xs = ys := by
  induction xs generalizing ys with
  | nil =>
    cases ys with
    | nil => rfl
    | cons head rest =>
      have := h head.1
      simp [find?] at this
  | cons x xs ih =>
    cases ys with
    | nil =>
      have := h x.1
      simp [find?] at this
    | cons y ys =>
      obtain ⟨hxs, hx'⟩ := List.pairwise_cons.1 hx
      obtain ⟨hys, hy'⟩ := List.pairwise_cons.1 hy
      have hxy : compare x.1 y.1 = .eq := by
        cases hc : compare x.1 y.1 with
        | eq => rfl
        | lt =>
          have hnone : find? x.1 (y :: ys) = none := find?_eq_none_of_lt fun entry hmem => by
            rcases List.mem_cons.1 hmem with rfl | hmem
            · exact hc
            · exact Std.TransCmp.lt_trans hc (hys entry hmem)
          have := h x.1
          rw [hnone] at this
          simp [find?] at this
        | gt =>
          have hc' : compare y.1 x.1 = .lt := Std.OrientedCmp.lt_of_gt hc
          have hnone : find? y.1 (x :: xs) = none := find?_eq_none_of_lt fun entry hmem => by
            rcases List.mem_cons.1 hmem with rfl | hmem
            · exact hc'
            · exact Std.TransCmp.lt_trans hc' (hxs entry hmem)
          have := h y.1
          rw [hnone] at this
          simp [find?] at this
      have hkey := Std.LawfulEqCmp.eq_of_compare hxy
      have hvalue : x.2 = y.2 := by simpa [find?, hkey] using h x.1
      have hhead : x = y := Prod.ext hkey hvalue
      subst hhead
      refine congrArg (x :: ·) (ih hx' hy' fun key => ?_)
      have hfind := h key
      simp only [find?] at hfind
      split at hfind
      · rename_i hk
        obtain rfl := Std.LawfulEqCmp.eq_of_compare hk
        rw [find?_eq_none_of_lt hxs, find?_eq_none_of_lt hys]
      · exact hfind

end Lawful

end Assoc

/-! ## The map type -/

/-- A finite map as the list of its entries in strictly ascending key order. -/
@[ext]
structure SortedMap (κ α : Type) [Ord κ] where
  entries : List (κ × α)
  ascending : Assoc.Ascending entries

namespace SortedMap

instance [DecidableEq κ] [DecidableEq α] : DecidableEq (SortedMap κ α) := fun m n =>
  decidable_of_iff (m.entries = n.entries) SortedMap.ext_iff.symm

instance : EmptyCollection (SortedMap κ α) := ⟨⟨[], Assoc.ascending_nil⟩⟩

instance : Inhabited (SortedMap κ α) := ⟨∅⟩

/-- The value of `key`, if it is bound. -/
def get? (m : SortedMap κ α) (key : κ) : Option α := Assoc.find? key m.entries

def contains (m : SortedMap κ α) (key : κ) : Bool := (m.get? key).isSome

def isEmpty (m : SortedMap κ α) : Bool := m.entries.isEmpty

def size (m : SortedMap κ α) : Nat := m.entries.length

def keys (m : SortedMap κ α) : List κ := m.entries.map Prod.fst

def values (m : SortedMap κ α) : List α := m.entries.map Prod.snd

/-- Removes `key`. -/
def erase (m : SortedMap κ α) (key : κ) : SortedMap κ α :=
  ⟨Assoc.erase key m.entries, Assoc.ascending_erase m.ascending⟩

/-- Keeps the entries that pass the test. -/
def filter (m : SortedMap κ α) (test : κ → α → Bool) : SortedMap κ α :=
  ⟨m.entries.filter fun entry => test entry.1 entry.2, List.Pairwise.filter _ m.ascending⟩

/-- Applies `f` to every value. -/
def map (m : SortedMap κ α) (f : κ → α → β) : SortedMap κ β :=
  ⟨m.entries.map fun entry => (entry.1, f entry.1 entry.2), by
    have h := m.ascending
    unfold Assoc.Ascending at h ⊢
    rwa [List.pairwise_map]⟩

@[simp] theorem get?_empty (key : κ) : (∅ : SortedMap κ α).get? key = none := rfl

section Lawful

variable [Std.LawfulEqOrd κ]

@[simp]
theorem get?_erase (m : SortedMap κ α) (key other : κ) :
    (m.erase key).get? other = if compare other key = .eq then none else m.get? other :=
  Assoc.find?_erase key other m.entries

theorem get?_eq_some_iff {m : SortedMap κ α} {key : κ} {value : α} :
    m.get? key = some value ↔ (key, value) ∈ m.entries :=
  Assoc.find?_eq_some_iff m.ascending

variable [Std.TransOrd κ]

/-- Binds `key` to `value`, replacing an earlier binding. -/
def insert (m : SortedMap κ α) (key : κ) (value : α) : SortedMap κ α :=
  ⟨Assoc.insert key value m.entries, Assoc.ascending_insert m.ascending⟩

/-- Binds the entries of a list; of two with one key the later counts. -/
def ofList (entries : List (κ × α)) : SortedMap κ α :=
  ⟨Assoc.ofList entries, Assoc.ascending_ofList entries⟩

/-- The entries of both maps; where both bind a key, the second counts. -/
def extend (m n : SortedMap κ α) : SortedMap κ α :=
  n.entries.foldl (fun acc entry => acc.insert entry.1 entry.2) m

@[simp]
theorem get?_insert (m : SortedMap κ α) (key other : κ) (value : α) :
    (m.insert key value).get? other =
      if compare other key = .eq then some value else m.get? other :=
  Assoc.find?_insert key other value m.entries

/-- Two maps that answer every lookup alike are equal. -/
theorem ext_get? {m n : SortedMap κ α} (h : ∀ key, m.get? key = n.get? key) : m = n :=
  SortedMap.ext (Assoc.eq_of_find?_eq m.ascending n.ascending h)

end Lawful

end SortedMap

/-- Texts by name: labels, annotations, environments, files. -/
abbrev StringMap := SortedMap String String

end NetLab
