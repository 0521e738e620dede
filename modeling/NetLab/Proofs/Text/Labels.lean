import Mathlib.Data.List.Basic
import NetLab.Text.DnsLabel

/-!
# Labels that are cut

A label holds at most `DnsLabel.maxLength` characters, so the last part of what it is made of may be
cut off.  `stem` is a label before it is cut, and `cut` what is left of it.  A part that is added to
a text only adds to its stem (`stem_append`), whatever letters the text is written in.

Two texts of different labels may get one label when the same suffix is added to both.  Then one of
the two is so long that nothing is left of the suffix (`lost_suffix`).
-/

namespace NetLab.DnsLabel

/-! ## Before the cut -/

/-- The characters of a label before it is cut. -/
def stem (text : String) : List Char := lettered (dashed (Text.lower text).toList)

/-- What is left of the characters of a label. -/
def cut (chars : List Char) : List Char := trimmed (chars.take maxLength)

theorem dashed_append (xs ys : List Char) : dashed (xs ++ ys) = dashed xs ++ dashed ys :=
  List.map_append

/-- The form of a sigma depends on what stands around it, but no form of it is left in a label. -/
theorem dashed_lowerAfter (before chars : List Char) :
    dashed (Text.lowerAfter before chars) =
      chars.flatMap fun c => dashed (Text.lowerChar c) := by
  induction chars generalizing before with
  | nil => rfl
  | cons c rest ih =>
    have hsigma : dashed (Text.lowerChar 'Σ') = ['-'] := by decide
    rw [Text.lowerAfter, List.flatMap_cons, ← ih (c :: before), dashed_append]
    split
    · rename_i heq
      rw [heq, hsigma]
      split <;> rfl
    · rfl

theorem dashed_lower (text : String) :
    dashed (Text.lower text).toList = text.toList.flatMap fun c => dashed (Text.lowerChar c) := by
  rw [Text.lower, String.toList_ofList, dashed_lowerAfter]

theorem stem_eq (text : String) :
    stem text = lettered (text.toList.flatMap fun c => dashed (Text.lowerChar c)) := by
  rw [stem, dashed_lower]

theorem lettered_append_dash (xs ys : List Char) :
    lettered (xs ++ '-' :: ys) = lettered xs ++ '-' :: ys := by
  cases xs with
  | nil => rfl
  | cons c rest =>
    simp only [lettered, List.cons_append]
    split <;> rfl

/-- **What another part adds** to the characters of a label. -/
theorem stem_append (text part : String) :
    stem (text ++ "-" ++ part) = stem text ++ '-' :: dashed (Text.lower part).toList := by
  have hdash : dashed (Text.lowerChar '-') = ['-'] := by decide
  simp only [stem_eq, dashed_lower, String.toList_append, List.flatMap_append]
  rw [← lettered_append_dash, List.append_assoc]
  simp [hdash]

/-! ## After the cut -/

theorem trimmed_append_dash (xs : List Char) : trimmed (xs ++ ['-']) = trimmed xs := by
  simp [trimmed]

theorem trimmed_append {xs ys : List Char} (hne : ys ≠ []) (hdash : '-' ∉ ys) :
    trimmed (xs ++ ys) = xs ++ ys := by
  obtain ⟨zs, c, rfl⟩ := (List.eq_nil_or_concat ys).resolve_left hne
  have hc : c ≠ '-' := fun heq => hdash (by simp [heq])
  simp [trimmed, hc]

/-- The last dash tells two parts of a text apart. -/
theorem append_dash_inj {xs ys suffix suffix' : List Char} (hdash : '-' ∉ suffix)
    (hdash' : '-' ∉ suffix') (h : xs ++ '-' :: suffix = ys ++ '-' :: suffix') :
    xs = ys ∧ suffix = suffix' := by
  rcases List.append_eq_append_iff.1 h with ⟨more, rfl, htail⟩ | ⟨more, rfl, htail⟩
  · cases more with
    | nil => exact ⟨(List.append_nil _).symm, (List.cons.inj htail).2⟩
    | cons c more =>
      -- The dash of the longer one would have to stand within the suffix of the shorter one.
      refine absurd ?_ hdash
      rw [(List.cons.inj htail).2]
      simp
  · cases more with
    | nil => exact ⟨List.append_nil _, (List.cons.inj htail).2.symm⟩
    | cons c more =>
      refine absurd ?_ hdash'
      rw [(List.cons.inj htail).2]
      simp

section Suffix

variable {suffix : List Char} (hne : suffix ≠ []) (hdash : '-' ∉ suffix)

/-- Where nothing is left of a suffix, or only its dash, the label is what it is without. -/
theorem cut_append_of_le {xs : List Char} (h : maxLength ≤ xs.length + 1) :
    cut (xs ++ '-' :: suffix) = cut xs := by
  unfold cut
  rcases Nat.lt_or_ge xs.length maxLength with hlt | hle
  · have hroom : maxLength - xs.length = 1 := by omega
    rw [List.take_append, hroom, List.take_of_length_le (Nat.le_of_lt hlt), List.take_succ_cons,
      List.take_zero, trimmed_append_dash]
  · rw [List.take_append_of_le_length hle]

include hne hdash

/-- Where something is left of a suffix, the characters before it are all there. -/
theorem cut_append_of_lt {xs : List Char} (h : xs.length + 1 < maxLength) :
    cut (xs ++ '-' :: suffix) = xs ++ '-' :: suffix.take (maxLength - xs.length - 1) := by
  obtain ⟨room, hroom⟩ : ∃ room, maxLength - xs.length = room + 1 + 1 :=
    ⟨maxLength - xs.length - 2, by omega⟩
  have hleft : suffix.take (room + 1) ≠ [] := by simpa [List.take_eq_nil_iff] using hne
  have hdash' : '-' ∉ suffix.take (room + 1) := fun hmem => hdash (List.mem_of_mem_take hmem)
  rw [cut, List.take_append, List.take_of_length_le (by omega), hroom, List.take_succ_cons,
    Nat.add_sub_cancel, List.append_cons, trimmed_append hleft hdash', ← List.append_cons]

/-- **When nothing is left of a suffix.** -/
theorem cut_append_eq_iff {xs : List Char} :
    cut (xs ++ '-' :: suffix) = cut xs ↔ maxLength ≤ xs.length + 1 := by
  refine ⟨fun h => ?_, cut_append_of_le⟩
  by_contra hroom
  rw [cut_append_of_lt hne hdash (Nat.lt_of_not_le hroom)] at h
  have hcut : (cut xs).length ≤ xs.length := by
    have htrimmed := (@List.dropWhile_suffix _ (xs.take maxLength).reverse (· = '-')).length_le
    rw [List.length_reverse, List.length_take] at htrimmed
    rw [cut, trimmed, List.length_reverse]
    omega
  have hlength := congrArg List.length h
  rw [List.length_append, List.length_cons] at hlength
  omega

/-- Two stems that both keep something of a suffix are told apart by their labels. -/
theorem eq_of_cut_append_eq {xs ys : List Char} (hx : xs.length + 1 < maxLength)
    (hy : ys.length + 1 < maxLength)
    (h : cut (xs ++ '-' :: suffix) = cut (ys ++ '-' :: suffix)) : xs = ys := by
  rw [cut_append_of_lt hne hdash hx, cut_append_of_lt hne hdash hy] at h
  exact (append_dash_inj (fun hmem => hdash (List.mem_of_mem_take hmem))
    (fun hmem => hdash (List.mem_of_mem_take hmem)) h).1

/-- **A suffix that makes two labels one is lost in one of them**, which is what it is without. -/
theorem lost_suffix {xs ys : List Char} (h : cut (xs ++ '-' :: suffix) = cut (ys ++ '-' :: suffix))
    (hdiffer : cut xs ≠ cut ys) :
    cut (xs ++ '-' :: suffix) = cut xs ∨ cut (ys ++ '-' :: suffix) = cut ys := by
  by_contra hkept
  obtain ⟨hx, hy⟩ := not_or.1 hkept
  rw [cut_append_eq_iff hne hdash, Nat.not_le] at hx hy
  exact hdiffer (congrArg cut (eq_of_cut_append_eq hne hdash hx hy h))

/-- **A suffix that makes a label that of a shorter stem is lost**, whatever suffix that one has. -/
theorem lost_suffix_of_length_lt {suffix' : List Char} (hne' : suffix' ≠ []) (hdash' : '-' ∉ suffix')
    {xs ys : List Char} (hlength : ys.length < xs.length)
    (h : cut (xs ++ '-' :: suffix) = cut (ys ++ '-' :: suffix')) :
    cut (xs ++ '-' :: suffix) = cut xs := by
  refine cut_append_of_le ?_
  by_contra hroom
  rw [cut_append_of_lt hne hdash (by omega), cut_append_of_lt hne' hdash' (by omega)] at h
  obtain ⟨rfl, -⟩ := append_dash_inj (fun hmem => hdash (List.mem_of_mem_take hmem))
    (fun hmem => hdash' (List.mem_of_mem_take hmem)) h
  exact Nat.lt_irrefl _ hlength

end Suffix

end NetLab.DnsLabel
