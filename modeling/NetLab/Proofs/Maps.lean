import Mathlib.Data.List.Induction
import Mathlib.Data.List.Nodup
import NetLab.SortedMap

/-!
# Lists, and maps that were built from them

What is checked element by element holds of the whole list, or is lost at a first element
(`holds_or_first_fault`).  A map built from a list answers with the last entry of a key
(`Assoc.find?_ofList_cons`), and a map laid over another one answers first
(`SortedMap.get?_extend`).
-/

namespace NetLab

/-! ## Lists up to their first fault -/

/-- A property of lists that is lost has a first element at which it is lost. -/
theorem holds_or_first_fault {α : Type} (Fine : List α → Prop) (hnil : Fine []) (xs : List α) :
    Fine xs ∨ ∃ before x after, xs = before ++ x :: after ∧ Fine before ∧
      ¬ Fine (before ++ [x]) := by
  induction xs using List.reverseRecOn with
  | nil => exact Or.inl hnil
  | append_singleton init x ih =>
    rcases ih with hinit | ⟨before, y, after, rfl, hbefore, hfault⟩
    · by_cases hx : Fine (init ++ [x])
      · exact Or.inl hx
      · exact Or.inr ⟨init, x, [], rfl, hinit, hx⟩
    · exact Or.inr ⟨before, y, after ++ [x], by simp, hbefore, hfault⟩

theorem nodup_map_concat {α β : Type} {key : α → β} {xs : List α} {x : α} :
    ((xs ++ [x]).map key).Nodup ↔ (xs.map key).Nodup ∧ ∀ y ∈ xs, key y ≠ key x := by
  rw [List.map_append, List.map_singleton, ← List.concat_eq_append, List.nodup_concat, and_comm]
  simp

/-! ## Lookups in maps -/

variable {κ α β : Type} [Ord κ] [Std.LawfulEqOrd κ]

namespace Assoc

theorem find?_foldl_insert (key : κ) (entries acc : List (κ × α)) :
    find? key (entries.foldl (fun acc entry => insert entry.1 entry.2 acc) acc) =
      (find? key (ofList entries)).or (find? key acc) := by
  induction entries generalizing acc with
  | nil => rfl
  | cons head rest ih =>
    simp only [ofList, List.foldl_cons]
    rw [ih, ih (insert head.1 head.2 []), find?_insert, find?_insert, Option.or_assoc]
    split <;> rfl

/-- Of two entries with one key the later counts. -/
theorem find?_ofList_cons (key : κ) (head : κ × α) (rest : List (κ × α)) :
    find? key (ofList (head :: rest)) =
      (find? key (ofList rest)).or (if compare key head.1 = .eq then some head.2 else none) := by
  have h := find?_foldl_insert key rest (insert head.1 head.2 [])
  rwa [find?_insert] at h

theorem find?_ofList_of_ascending (key : κ) {entries : List (κ × α)} (h : Ascending entries) :
    find? key (ofList entries) = find? key entries := by
  induction entries with
  | nil => rfl
  | cons head rest ih =>
    obtain ⟨hhead, hrest⟩ := List.pairwise_cons.1 h
    rw [find?_ofList_cons, ih hrest, find?]
    split
    · rename_i heq
      obtain rfl := Std.LawfulEqCmp.eq_of_compare heq
      rw [find?_eq_none_of_lt hhead]
      rfl
    · simp

theorem find?_map (key : κ) (f : κ → α → β) (entries : List (κ × α)) :
    find? key (entries.map fun entry => (entry.1, f entry.1 entry.2)) =
      (find? key entries).map (f key) := by
  induction entries with
  | nil => rfl
  | cons head rest ih =>
    simp only [List.map_cons, find?, ih]
    split
    · rename_i heq
      rw [Std.LawfulEqCmp.eq_of_compare heq]
      rfl
    · rfl

theorem find?_ofList_map (key : κ) (f : α → β) (entries : List (κ × α)) :
    find? key (ofList (entries.map fun entry => (entry.1, f entry.2))) =
      (find? key (ofList entries)).map f := by
  induction entries with
  | nil => rfl
  | cons head rest ih =>
    rw [List.map_cons, find?_ofList_cons, find?_ofList_cons, ih, Option.map_or]
    split <;> rfl

/-- A list that is in order is what is built from it. -/
theorem ofList_of_ascending [Std.TransOrd κ] {entries : List (κ × α)} (h : Ascending entries) :
    ofList entries = entries :=
  eq_of_find?_eq (ascending_ofList entries) h fun key => find?_ofList_of_ascending key h

end Assoc

namespace SortedMap

/-- No key is bound twice. -/
theorem nodup_keys (m : SortedMap κ α) : m.keys.Nodup := by
  refine List.pairwise_map.2 (m.ascending.imp fun hlt heq => ?_)
  rw [heq] at hlt
  simp at hlt

theorem mem_keys_iff {m : SortedMap κ α} {key : κ} : key ∈ m.keys ↔ m.contains key = true := by
  simp [keys, contains, Option.isSome_iff_exists, get?_eq_some_iff]

theorem mem_keys_iff_exists {m : SortedMap κ α} {key : κ} :
    key ∈ m.keys ↔ ∃ value, m.get? key = some value := by
  rw [mem_keys_iff, contains, Option.isSome_iff_exists]

@[simp]
theorem get?_map (m : SortedMap κ α) (f : κ → α → β) (key : κ) :
    (m.map f).get? key = (m.get? key).map (f key) :=
  Assoc.find?_map key f m.entries

variable [Std.TransOrd κ]

/-- A map is built from its own entries. -/
theorem ofList_entries (m : SortedMap κ α) : ofList m.entries = m :=
  SortedMap.ext (Assoc.ofList_of_ascending m.ascending)

@[simp]
theorem get?_ofList_nil (key : κ) : (ofList ([] : List (κ × α))).get? key = none := rfl

@[simp]
theorem get?_ofList_cons (key : κ) (head : κ × α) (rest : List (κ × α)) :
    (ofList (head :: rest)).get? key =
      ((ofList rest).get? key).or (if compare key head.1 = .eq then some head.2 else none) :=
  Assoc.find?_ofList_cons key head rest

theorem get?_insert_ite [DecidableEq κ] (m : SortedMap κ α) (key other : κ) (value : α) :
    (m.insert key value).get? other = if other = key then some value else m.get? other := by
  simp only [get?_insert, Std.LawfulEqCmp.compare_eq_iff_eq]

theorem get?_insert_of_ne {m : SortedMap κ α} {key other : κ} {value : α} (h : other ≠ key) :
    (m.insert key value).get? other = m.get? other := by
  classical rw [get?_insert_ite, if_neg h]

/-- The keys of a map are those of the list it was built from. -/
theorem contains_ofList_iff {entries : List (κ × α)} {key : κ} :
    (ofList entries).contains key = true ↔ key ∈ entries.map Prod.fst := by
  induction entries with
  | nil => simp [contains]
  | cons head rest ih =>
    rw [contains] at ih
    simp [contains, ih, or_comm, Std.LawfulEqCmp.compare_eq_iff_eq]

/-- In a map that was built from entries with keys of their own, each of them is found. -/
theorem get?_ofList_of_mem {entries : List (κ × α)} (hnodup : (entries.map Prod.fst).Nodup)
    {key : κ} {value : α} (hmem : (key, value) ∈ entries) :
    (ofList entries).get? key = some value := by
  induction entries with
  | nil => cases hmem
  | cons head rest ih =>
    obtain ⟨hfresh, hrest⟩ := List.nodup_cons.1 hnodup
    rw [get?_ofList_cons]
    rcases List.mem_cons.1 hmem with rfl | hmem
    · have hnone : (ofList rest).get? key = none := by
        rw [← Option.not_isSome_iff_eq_none]
        exact fun hsome => hfresh (contains_ofList_iff.1 hsome)
      simp [hnone]
    · rw [ih hrest hmem]
      rfl

/-- Where both maps bind a key, the second counts. -/
@[simp]
theorem get?_extend (m n : SortedMap κ α) (key : κ) :
    (m.extend n).get? key = (n.get? key).or (m.get? key) := by
  have hentries : ∀ (entries : List (κ × α)) (acc : SortedMap κ α),
      (entries.foldl (fun acc entry => acc.insert entry.1 entry.2) acc).entries =
        entries.foldl (fun acc entry => Assoc.insert entry.1 entry.2 acc) acc.entries := by
    intro entries
    induction entries with
    | nil => exact fun _ => rfl
    | cons head rest ih => exact fun acc => ih (acc.insert head.1 head.2)
  unfold get? extend
  rw [hentries, Assoc.find?_foldl_insert, Assoc.find?_ofList_of_ascending key n.ascending]

end SortedMap

end NetLab
