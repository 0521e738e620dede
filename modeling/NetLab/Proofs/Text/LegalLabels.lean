import Mathlib.Data.List.DropRight
import NetLab.Proofs.Text.Labels

/-!
# Labels are legal

`IsLabel` says what a DNS-1035 label is.  Whatever texts a label is made of, it is one
(`isLabel_ofParts`): lower-casing leaves no capital of ASCII, so each character is a letter or digit
or gives a dash, and from then on a letter stands first.  As every character takes one byte then, a
cut between bytes falls between characters (`cutAtByte?_eq`).  A text that is a label already is its
own label (`ofParts_of_isLabel`).
-/

namespace NetLab

/-! ## Capitals -/

namespace Text

/-- What holds of the characters of ASCII one by one. -/
theorem forall_ascii {P : Char → Prop} (h : ∀ code < 0x80, P (Char.ofNat code)) {c : Char}
    (hc : c.toNat < 0x80) : P c := by
  rw [← Char.ofNat_toNat c]
  exact h _ hc

theorem isUpper_eq_false_of_lt {c : Char} (h : 90 < c.toNat) : c.isUpper = false :=
  decide_eq_false fun hrange => Nat.not_le.2 h (UInt32.le_iff_toNat_le.1 hrange.2)

/-- No character beyond ASCII has a capital of ASCII as its lower-case form. -/
theorem caseRuns_above : ∀ run ∈ caseRuns, 90 < run.first + run.delta := by
  decide +kernel

theorem isUpper_ofNat_of_lt {code : Nat} (h : 90 < code) : (Char.ofNat code).isUpper = false := by
  rw [Char.ofNat]
  by_cases hvalid : code.isValidChar
  · rw [dif_pos hvalid]
    exact isUpper_eq_false_of_lt h
  · rw [dif_neg hvalid]
    rfl

/-- **Lower case leaves no capitals.** -/
theorem isUpper_of_mem_lowerChar {c d : Char} (h : d ∈ lowerChar c) : d.isUpper = false := by
  unfold lowerChar at h
  simp only at h
  split at h
  · rename_i hascii
    rw [List.mem_singleton.1 h]
    exact forall_ascii (P := fun c => c.toLower.isUpper = false) (by decide) hascii
  · rename_i hbeyond
    -- Beyond ASCII, a character that is its own lower-case form is no capital of ASCII either.
    have hself : c.isUpper = false := isUpper_eq_false_of_lt (by omega)
    split at h
    · rcases List.mem_pair.1 h with rfl | rfl <;> decide
    · split at h
      · rename_i run hrun
        split at h
        · have habove := caseRuns_above run (List.mem_of_find?_eq_some hrun)
          rw [List.mem_singleton.1 h]
          exact isUpper_ofNat_of_lt (by omega)
        · rwa [List.mem_singleton.1 h]
      · rwa [List.mem_singleton.1 h]

/-- **A lower-cased text holds no capital of ASCII.** -/
theorem isUpper_of_mem_lowerAfter {before chars : List Char} {d : Char}
    (h : d ∈ lowerAfter before chars) : d.isUpper = false := by
  induction chars generalizing before with
  | nil => exact absurd h List.not_mem_nil
  | cons c rest ih =>
    rw [lowerAfter] at h
    rcases List.mem_append.1 h with hfirst | hrest
    · split at hfirst
      · rw [List.mem_singleton.1 hfirst]
        split <;> decide
      · exact isUpper_of_mem_lowerChar hfirst
    · exact ih hrest

end Text

namespace DnsLabel

/-! ## Labels -/

/-- A lower-case letter, a digit or a dash. -/
def isLabelChar (c : Char) : Bool := c.isLower || c.isDigit || c = '-'

/-- **A DNS-1035 label**: 1 to 63 bytes of lower-case letters, digits and dashes, a letter first and
no dash last. -/
structure IsLabel (text : String) : Prop where
  nonempty : 1 ≤ text.utf8ByteSize
  short : text.utf8ByteSize ≤ 63
  chars : ∀ c ∈ text.toList, isLabelChar c = true
  first : ∃ c, text.toList.head? = some c ∧ c.isLower = true
  last : ∃ c, text.toList.getLast? = some c ∧ (c.isLower || c.isDigit) = true

variable {c : Char} {chars : List Char} {text : String}

theorem isLetter_eq (c : Char) : isLetter c = c.isLower := rfl

theorem toNat_lt_of_isLabelChar (h : isLabelChar c = true) : c.toNat < 0x80 := by
  have hbelow {first last : Char} (hlast : last.toNat < 0x80)
      (hrange : (decide (c.val ≥ first.val) && decide (c.val ≤ last.val)) = true) :
      c.toNat < 0x80 := by
    have hle : c.val ≤ last.val := of_decide_eq_true (Bool.and_eq_true_iff.1 hrange).2
    exact Nat.lt_of_le_of_lt (UInt32.le_iff_toNat_le.1 hle) hlast
  rw [isLabelChar, Bool.or_eq_true, Bool.or_eq_true] at h
  rcases h with (hlower | hdigit) | hdash
  · exact hbelow (by decide) hlower
  · exact hbelow (by decide) hdigit
  · rw [of_decide_eq_true hdash]
    decide

/-! ### Bytes -/

/-- The characters that fill a number of bytes, or all where there are fewer; nothing where the
last of these bytes falls within a character. -/
def fill? (room : Nat) : List Char → Option (List Char)
  | [] => some []
  | c :: rest =>
    if room = 0 then some []
    else if c.utf8Size ≤ room then (fill? (room - c.utf8Size) rest).map (c :: ·)
    else none

/-- Characters of labels take one byte each. -/
theorem utf8Size_of_isLabelChar (h : isLabelChar c = true) : c.utf8Size = 1 := by
  rw [Char.utf8Size_eq_one_iff, UInt32.le_iff_toNat_le]
  exact Nat.le_of_lt_succ (toNat_lt_of_isLabelChar h)

theorem utf8ByteSize_eq_length (h : ∀ c ∈ chars, isLabelChar c = true) :
    (String.ofList chars).utf8ByteSize = chars.length := by
  induction chars with
  | nil => rfl
  | cons c rest ih =>
    obtain ⟨hc, hrest⟩ := List.forall_mem_cons.1 h
    rw [String.ofList_cons, String.utf8ByteSize_append, String.utf8ByteSize_singleton,
      utf8Size_of_isLabelChar hc, ih hrest, List.length_cons, Nat.add_comm]

/-- So no place in them falls within one. -/
theorem fill?_eq (h : ∀ c ∈ chars, isLabelChar c = true) (room : Nat) :
    fill? room chars = some (chars.take room) := by
  induction chars generalizing room with
  | nil => rw [fill?, List.take_nil]
  | cons c rest ih =>
    obtain ⟨hc, hrest⟩ := List.forall_mem_cons.1 h
    cases room with
    | zero => rfl
    | succ room =>
      rw [fill?, if_neg (Nat.succ_ne_zero room), utf8Size_of_isLabelChar hc,
        if_pos (Nat.le_add_left 1 room), Nat.add_sub_cancel, ih hrest, List.take_succ_cons]
      rfl

/-! ### Before the cut -/

theorem isLabelChar_of_mem_dashed_lower (h : c ∈ dashed (Text.lower text).toList) :
    isLabelChar c = true := by
  rw [Text.lower, String.toList_ofList, dashed] at h
  obtain ⟨d, hd, rfl⟩ := List.mem_map.1 h
  have hupper : ('A' ≤ d && d ≤ 'Z') = false := by
    rw [← Bool.decide_and]
    exact Text.isUpper_of_mem_lowerAfter hd
  split
  · rename_i halphanumeric
    rw [isAlphanumeric, hupper, Bool.or_false] at halphanumeric
    rw [isLabelChar]
    exact Bool.or_eq_true_iff.2 (.inl halphanumeric)
  · rfl

theorem isLabelChar_of_mem_lettered (h : ∀ c ∈ chars, isLabelChar c = true) :
    ∀ c ∈ lettered chars, isLabelChar c = true := by
  unfold lettered
  split
  · split
    · exact h
    · simpa [isLabelChar] using h
  · simp [isLabelChar]

theorem isLabelChar_of_mem_stem : ∀ c ∈ stem text, isLabelChar c = true :=
  isLabelChar_of_mem_lettered fun _ => isLabelChar_of_mem_dashed_lower

/-- A letter stands first in what is to be cut. -/
theorem lettered_eq_cons (chars : List Char) :
    ∃ c rest, lettered chars = c :: rest ∧ isLetter c = true := by
  unfold lettered
  split
  · split
    · rename_i hletter
      exact ⟨_, _, rfl, hletter⟩
    · exact ⟨_, _, rfl, rfl⟩
  · exact ⟨_, _, rfl, rfl⟩

/-! ### After the cut -/

theorem trimmed_eq_rdropWhile (chars : List Char) : trimmed chars = chars.rdropWhile (· = '-') :=
  rfl

theorem trimmed_cons {rest : List Char} (h : c ≠ '-') :
    trimmed (c :: rest) = c :: trimmed rest := by
  simp only [trimmed, List.reverse_cons, List.dropWhile_append]
  split
  · rename_i hempty
    rw [List.isEmpty_iff.1 hempty]
    simp [h]
  · simp

theorem mem_of_mem_cut (h : c ∈ cut chars) : c ∈ chars :=
  List.mem_of_mem_take ((List.rdropWhile_prefix _ _).mem h)

theorem length_cut_le (chars : List Char) : (cut chars).length ≤ maxLength :=
  Nat.le_trans (List.rdropWhile_prefix _ _).length_le (List.length_take_le _ _)

/-- The letter that stands first stays. -/
theorem cut_stem_eq_cons (text : String) :
    ∃ c rest, cut (stem text) = c :: rest ∧ isLetter c = true := by
  obtain ⟨c, rest, hstem, hletter⟩ := lettered_eq_cons (dashed (Text.lower text).toList)
  have hdash : c ≠ '-' := by
    rintro rfl
    exact absurd hletter (by decide)
  exact ⟨c, _, by rw [stem, hstem, cut, List.take_cons (by decide), trimmed_cons hdash], hletter⟩

/-- The label of some parts, cut between bytes: nothing where the cut would fall within a
character. -/
def cutAtByte? (parts : List String) : Option String :=
  (fill? maxLength (stem (String.intercalate "-" parts))).map fun kept => .ofList (trimmed kept)

/-- **The cut never falls within a character**, so it does not matter what it counts. -/
theorem cutAtByte?_eq (parts : List String) : cutAtByte? parts = some (ofParts parts) := by
  rw [cutAtByte?, fill?_eq isLabelChar_of_mem_stem]
  rfl

/-- **Whatever texts a label is made of, it is one.** -/
theorem isLabel_ofParts (parts : List String) : IsLabel (ofParts parts) := by
  have hofParts : ofParts parts = String.ofList (cut (stem (String.intercalate "-" parts))) := rfl
  generalize String.intercalate "-" parts = text at hofParts
  have hchars : ∀ c ∈ cut (stem text), isLabelChar c = true := fun c hc =>
    isLabelChar_of_mem_stem c (mem_of_mem_cut hc)
  obtain ⟨first, rest, hcut, hletter⟩ := cut_stem_eq_cons text
  have hne : cut (stem text) ≠ [] := hcut ▸ List.cons_ne_nil _ _
  rw [hofParts]
  refine ⟨?_, ?_, ?_, ?_, ?_⟩
  · rw [utf8ByteSize_eq_length hchars]
    exact List.length_pos_iff.2 hne
  · rw [utf8ByteSize_eq_length hchars]
    exact length_cut_le _
  · rwa [String.toList_ofList]
  · rw [String.toList_ofList, hcut]
    exact ⟨first, rfl, hletter⟩
  · rw [String.toList_ofList]
    -- The last character is one of a label, and of these trimming leaves no dash.
    refine ⟨(cut (stem text)).getLast hne, List.getLast?_eq_getLast_of_ne_nil hne, ?_⟩
    have hlast := hchars _ (List.getLast_mem hne)
    have hdash := List.rdropWhile_last_not (· = '-') ((stem text).take maxLength) hne
    rw [isLabelChar, Bool.or_eq_true] at hlast
    exact hlast.resolve_right hdash

-- Even no text at all gives a label.
example : ofParts [] = "ns" := by decide +kernel

/-! ## Labels of labels -/

/-- Nothing is done to a character of a label. -/
theorem lower_dashed_of_isLabelChar (h : isLabelChar c = true) :
    Text.lowerChar c = [c] ∧ c ≠ 'Σ' ∧ (if isAlphanumeric c then c else '-') = c :=
  Text.forall_ascii (P := fun c => isLabelChar c = true →
    Text.lowerChar c = [c] ∧ c ≠ 'Σ' ∧ (if isAlphanumeric c then c else '-') = c)
    (by decide) (toNat_lt_of_isLabelChar h) h

theorem lowerAfter_eq_self (h : ∀ c ∈ chars, isLabelChar c = true) (before : List Char) :
    Text.lowerAfter before chars = chars := by
  induction chars generalizing before with
  | nil => rfl
  | cons c rest ih =>
    obtain ⟨hc, hrest⟩ := List.forall_mem_cons.1 h
    obtain ⟨hlower, hsigma, -⟩ := lower_dashed_of_isLabelChar hc
    rw [Text.lowerAfter, ih hrest, if_neg hsigma, hlower]
    rfl

theorem dashed_eq_self (h : ∀ c ∈ chars, isLabelChar c = true) : dashed chars = chars :=
  (List.map_congr_left fun c hc => (lower_dashed_of_isLabelChar (h c hc)).2.2).trans
    (List.map_id chars)

theorem stem_eq_self (h : IsLabel text) : stem text = text.toList := by
  obtain ⟨first, hfirst, hletter⟩ := h.first
  obtain ⟨rest, hrest⟩ := List.head?_eq_some_iff.1 hfirst
  rw [stem, Text.lower, lowerAfter_eq_self h.chars, String.toList_ofList, dashed_eq_self h.chars,
    hrest, lettered, isLetter_eq, if_pos hletter]

theorem cut_eq_self (h : IsLabel text) : cut text.toList = text.toList := by
  have hlength : text.toList.length ≤ maxLength := by
    rw [← utf8ByteSize_eq_length h.chars, String.ofList_toList]
    exact h.short
  rw [cut, List.take_of_length_le hlength, trimmed_eq_rdropWhile, List.rdropWhile_eq_self_iff]
  intro hne hdash
  obtain ⟨last, hlast, halphanumeric⟩ := h.last
  rw [List.getLast?_eq_getLast_of_ne_nil hne, Option.some_inj] at hlast
  rw [hlast, decide_eq_true_eq] at hdash
  subst hdash
  exact absurd halphanumeric (by decide)

/-- **A label is its own label.** -/
theorem ofParts_of_isLabel (h : IsLabel text) : ofParts [text] = text := by
  have hofParts : ofParts [text] = String.ofList (cut (stem (String.intercalate "-" [text]))) := rfl
  rw [hofParts, String.intercalate_singleton, stem_eq_self h, cut_eq_self h, String.ofList_toList]

end DnsLabel

end NetLab
