import Mathlib.Data.List.Pairwise
import NetLab.Classify.Classifier
import NetLab.Proofs.Maps
import NetLab.Proofs.Text.ByteOrder

/-!
# The image pattern that decides

Patterns are tried in lower case, longer ones first, and the first one that occurs in an image
decides.  What is found that way does not depend on how the search goes: it is the best of all
patterns that occur (`ClassifierTables.BestPattern`), which is a matter of looking spellings up in
the table.  Spellings that differ in case only are one pattern; the smallest of them decides what it
stands for, because the sort is stable (`filter_mergeSort`) and the table is in order.
-/

namespace NetLab

open Text

/-- Elements between which a sort has no preference keep their order. -/
theorem filter_mergeSort {α : Type} {le : α → α → Bool} {test : α → Bool}
    (htrans : ∀ a b c, le a b = true → le b c = true → le a c = true)
    (htotal : ∀ a b, (le a b || le b a) = true)
    (halike : ∀ a b, test a = true → test b = true → le a b = true) (xs : List α) :
    (xs.mergeSort le).filter test = xs.filter test := by
  have hpairwise : (xs.filter test).Pairwise fun a b => le a b = true :=
    List.pairwise_of_forall_mem_list fun a ha b hb =>
      halike a b (List.of_mem_filter ha) (List.of_mem_filter hb)
  have hsublist := (List.sublist_mergeSort htrans htotal hpairwise List.filter_sublist).filter test
  rw [List.filter_filter] at hsublist
  simp only [Bool.and_self] at hsublist
  exact (hsublist.eq_of_length ((xs.mergeSort_perm le).filter test).length_eq.symm).symm

/-! ## The order of trying -/

/-- The first text is to be tried before the second one: it is longer, in bytes, or of the same
length and not greater. -/
def TriedBefore (a b : String) : Prop :=
  (bytes b).length < (bytes a).length ∨
    (bytes a).length = (bytes b).length ∧ bytes a ≤ bytes b

namespace TriedBefore

variable {a b c : String}

theorem refl (a : String) : TriedBefore a a := Or.inr ⟨rfl, List.le_refl _⟩

theorem trans (h : TriedBefore a b) (h' : TriedBefore b c) : TriedBefore a c := by
  rcases h with hlt | ⟨heq, hle⟩
  · rcases h' with hlt' | ⟨heq', -⟩
    · exact Or.inl (Nat.lt_trans hlt' hlt)
    · exact Or.inl (heq' ▸ hlt)
  · rcases h' with hlt' | ⟨heq', hle'⟩
    · exact Or.inl (heq ▸ hlt')
    · exact Or.inr ⟨heq.trans heq', List.le_trans hle hle'⟩

theorem total (a b : String) : TriedBefore a b ∨ TriedBefore b a := by
  rcases Nat.lt_trichotomy (bytes a).length (bytes b).length with hlt | heq | hgt
  · exact Or.inr (Or.inl hlt)
  · exact (List.le_total (bytes a) (bytes b)).imp (fun hle => Or.inr ⟨heq, hle⟩)
      fun hle => Or.inr ⟨heq.symm, hle⟩
  · exact Or.inl (Or.inl hgt)

theorem antisymm (h : TriedBefore a b) (h' : TriedBefore b a) : a = b := by
  rcases h with hlt | ⟨heq, hle⟩
  · rcases h' with hlt' | ⟨heq', -⟩
    · exact absurd hlt' (Nat.lt_asymm hlt)
    · exact absurd heq' (Nat.ne_of_lt hlt)
  · rcases h' with hlt' | ⟨-, hle'⟩
    · exact absurd heq (Nat.ne_of_lt hlt')
    · exact String.le_antisymm (bytes_le_iff.1 hle) (bytes_le_iff.1 hle')

/-- A text is tried before its parts. -/
theorem of_part (h : b.toList <:+: a.toList) : TriedBefore a b := by
  have hbytes : bytes b <:+: bytes a := by
    obtain ⟨before, after, heq⟩ := h
    refine ⟨before.flatMap String.utf8EncodeChar, after.flatMap String.utf8EncodeChar, ?_⟩
    rw [bytes_eq, bytes_eq, ← heq, List.flatMap_append, List.flatMap_append]
  rcases Nat.lt_or_eq_of_le hbytes.length_le with hlt | heq
  · exact Or.inl hlt
  · exact Or.inr ⟨heq.symm, (hbytes.eq_of_length heq) ▸ List.le_refl _⟩

end TriedBefore

theorem patternLe_iff {a b : String × WorkloadType} :
    patternLe a b = true ↔ TriedBefore a.1 b.1 := by
  unfold patternLe TriedBefore
  simp only [length_bytes, Bool.or_eq_true, Bool.and_eq_true, decide_eq_true_eq, isLE_compare_iff]

theorem patternLe_trans (a b c : String × WorkloadType) (hab : patternLe a b = true)
    (hbc : patternLe b c = true) : patternLe a c = true :=
  patternLe_iff.2 ((patternLe_iff.1 hab).trans (patternLe_iff.1 hbc))

theorem patternLe_total (a b : String × WorkloadType) :
    (patternLe a b || patternLe b a) = true := by
  rw [Bool.or_eq_true, patternLe_iff, patternLe_iff]
  exact TriedBefore.total a.1 b.1

namespace ClassifierTables

variable {tables : ClassifierTables} {image pattern : String} {type : WorkloadType}

theorem mem_patternOrder {entry : String × WorkloadType} : entry ∈ tables.patternOrder ↔
    ∃ spelling, tables.imagePatterns.get? spelling = some entry.2 ∧ lower spelling = entry.1 := by
  rw [patternOrder, List.mem_mergeSort, List.mem_map]
  constructor
  · rintro ⟨⟨spelling, type⟩, hmem, rfl⟩
    exact ⟨spelling, SortedMap.get?_eq_some_iff.2 hmem, rfl⟩
  · rintro ⟨spelling, hget, hlower⟩
    exact ⟨(spelling, entry.2), SortedMap.get?_eq_some_iff.1 hget, Prod.ext hlower rfl⟩

theorem pairwise_patternOrder :
    tables.patternOrder.Pairwise fun a b => TriedBefore a.1 b.1 :=
  (List.pairwise_mergeSort patternLe_trans patternLe_total _).imp patternLe_iff.1

/-- The spellings of one pattern are tried as they stand in the table. -/
theorem filter_patternOrder (tables : ClassifierTables) (pattern : String) :
    tables.patternOrder.filter (fun entry => entry.1 = pattern) =
      (tables.imagePatterns.entries.filter fun entry => lower entry.1 = pattern).map
        fun (spelling, type) => (lower spelling, type) := by
  have halike (a b : String × WorkloadType) (ha : decide (a.1 = pattern) = true)
      (hb : decide (b.1 = pattern) = true) : patternLe a b = true := by
    rw [patternLe_iff, of_decide_eq_true ha, of_decide_eq_true hb]
    exact TriedBefore.refl pattern
  rw [patternOrder, filter_mergeSort patternLe_trans patternLe_total halike, List.filter_map]
  rfl

/-! ## The best pattern -/

/-- The smallest spelling of a pattern in the table, and what the table says of it. -/
structure FirstSpelling (tables : ClassifierTables) (pattern spelling : String)
    (type : WorkloadType) : Prop where
  listed : tables.imagePatterns.get? spelling = some type
  spells : lower spelling = pattern
  first : ∀ other ∈ tables.imagePatterns.keys, lower other = pattern → bytes spelling ≤ bytes other

/-- **The best of all patterns that occur in an image**: the longest, and of those of one length the
smallest. -/
structure BestPattern (tables : ClassifierTables) (image pattern : String) : Prop where
  listed : ∃ spelling ∈ tables.imagePatterns.keys, lower spelling = pattern
  occurs : pattern.toList <:+: image.toList
  best : ∀ spelling ∈ tables.imagePatterns.keys, (lower spelling).toList <:+: image.toList →
    TriedBefore pattern (lower spelling)

theorem FirstSpelling.mem_keys {spelling : String} (h : tables.FirstSpelling pattern spelling type) :
    spelling ∈ tables.imagePatterns.keys :=
  SortedMap.mem_keys_iff_exists.2 ⟨type, h.listed⟩

theorem FirstSpelling.unique {spelling spelling' : String} {type' : WorkloadType}
    (h : tables.FirstSpelling pattern spelling type)
    (h' : tables.FirstSpelling pattern spelling' type') : type = type' := by
  have hspelling : spelling = spelling' := String.le_antisymm
    (bytes_le_iff.1 (h.first _ h'.mem_keys h'.spells))
    (bytes_le_iff.1 (h'.first _ h.mem_keys h.spells))
  have hlisted := h.listed
  rw [hspelling, h'.listed] at hlisted
  exact (Option.some.inj hlisted).symm

theorem BestPattern.unique {pattern' : String} (h : tables.BestPattern image pattern)
    (h' : tables.BestPattern image pattern') : pattern = pattern' := by
  obtain ⟨spelling, hmem, rfl⟩ := h.listed
  obtain ⟨spelling', hmem', rfl⟩ := h'.listed
  exact (h.best _ hmem' h'.occurs).antisymm (h'.best _ hmem h.occurs)

/-- What the table says of the first spelling of a pattern heads what is tried of the pattern. -/
theorem firstSpelling_of_filter {rest : List (String × WorkloadType)}
    (h : tables.patternOrder.filter (fun entry => entry.1 = pattern) = (pattern, type) :: rest) :
    ∃ spelling, tables.FirstSpelling pattern spelling type := by
  rw [filter_patternOrder] at h
  obtain ⟨⟨spelling, type'⟩, others, hfilter, heq, -⟩ := List.map_eq_cons_iff.1 h
  obtain ⟨hspells, rfl⟩ := Prod.mk.inj heq
  have hmem : (spelling, type') ∈ tables.imagePatterns.entries :=
    List.mem_of_mem_filter (hfilter ▸ List.mem_cons_self)
  have hordered : ((spelling, type') :: others).Pairwise fun a b => compare a.1 b.1 = .lt :=
    hfilter ▸ tables.imagePatterns.ascending.filter _
  refine ⟨spelling, SortedMap.get?_eq_some_iff.2 hmem, hspells, fun other hother hlower => ?_⟩
  obtain ⟨otherType, hget⟩ := SortedMap.mem_keys_iff_exists.1 hother
  have hlisted : (other, otherType) ∈ (spelling, type') :: others :=
    hfilter ▸ List.mem_filter.2 ⟨SortedMap.get?_eq_some_iff.1 hget, decide_eq_true hlower⟩
  rcases List.mem_cons.1 hlisted with heq | hlater
  · rw [(Prod.mk.inj heq).1]
    exact List.le_refl _
  · have hlt := (List.pairwise_cons.1 hordered).1 _ hlater
    exact isLE_compare_iff.1 (by rw [hlt]; rfl)

/-- What the search finds is the best pattern, with the type of its first spelling. -/
theorem best_of_find? (h : (tables.patternOrder.find? fun entry => occursIn entry.1 image) =
    some (pattern, type)) :
    tables.BestPattern image pattern ∧ ∃ spelling, tables.FirstSpelling pattern spelling type := by
  obtain ⟨hoccurs, before, after, horder, hbefore⟩ := List.find?_eq_some_iff_append.1 h
  have hnone : before.filter (fun entry => entry.1 = pattern) = [] := by
    refine List.filter_eq_nil_iff.2 fun entry hmem heq => ?_
    have hmissed := hbefore entry hmem
    rw [of_decide_eq_true heq, hoccurs] at hmissed
    cases hmissed
  have hheads : tables.patternOrder.filter (fun entry => entry.1 = pattern) =
      (pattern, type) :: after.filter (fun entry => entry.1 = pattern) := by
    rw [horder, List.filter_append, hnone, List.nil_append]
    exact List.filter_cons_of_pos (decide_eq_true rfl)
  obtain ⟨spelling, hfirst⟩ := firstSpelling_of_filter hheads
  refine ⟨⟨⟨spelling, hfirst.mem_keys, hfirst.spells⟩, (occursIn_iff _ _).1 hoccurs, ?_⟩,
    spelling, hfirst⟩
  intro other hother hin
  obtain ⟨otherType, hget⟩ := SortedMap.mem_keys_iff_exists.1 hother
  have hmem : (lower other, otherType) ∈ tables.patternOrder :=
    mem_patternOrder.2 ⟨other, hget, rfl⟩
  have hsorted := tables.pairwise_patternOrder
  rw [horder] at hmem hsorted
  rcases List.mem_append.1 hmem with hearlier | hlater
  · -- A pattern that was tried before does not occur.
    have hmissed := hbefore _ hearlier
    rw [(occursIn_iff _ _).2 hin] at hmissed
    cases hmissed
  · rcases List.mem_cons.1 hlater with heq | hlater
    · rw [(Prod.mk.inj heq).1]
      exact TriedBefore.refl pattern
    · have hafter := (List.pairwise_append.1 hsorted).2.1
      have htried : ∀ later ∈ after, TriedBefore pattern later.1 := (List.pairwise_cons.1 hafter).1
      exact htried (lower other, otherType) hlater

/-- The best pattern is found. -/
theorem BestPattern.found (hbest : tables.BestPattern image pattern) :
    ∃ type, (tables.patternOrder.find? fun entry => occursIn entry.1 image) =
      some (pattern, type) := by
  obtain ⟨spelling, hkey, hspells⟩ := hbest.listed
  obtain ⟨type, hget⟩ := SortedMap.mem_keys_iff_exists.1 hkey
  have hmem : (pattern, type) ∈ tables.patternOrder := mem_patternOrder.2 ⟨spelling, hget, hspells⟩
  cases hfind : tables.patternOrder.find? fun entry => occursIn entry.1 image with
  | none => exact absurd ((occursIn_iff _ _).2 hbest.occurs) (List.find?_eq_none.1 hfind _ hmem)
  | some found =>
    obtain ⟨pattern', type'⟩ := found
    obtain rfl := hbest.unique (best_of_find? hfind).1
    exact ⟨type', rfl⟩

/-- **The search finds the best pattern**, and nothing else. -/
theorem find?_patternOrder_iff :
    (tables.patternOrder.find? fun entry => occursIn entry.1 image) = some (pattern, type) ↔
      tables.BestPattern image pattern ∧
        ∃ spelling, tables.FirstSpelling pattern spelling type := by
  refine ⟨best_of_find?, ?_⟩
  rintro ⟨hbest, spelling, hfirst⟩
  obtain ⟨type', hfind⟩ := hbest.found
  obtain ⟨-, spelling', hfirst'⟩ := best_of_find? hfind
  rw [hfind, hfirst.unique hfirst']

end ClassifierTables

end NetLab
