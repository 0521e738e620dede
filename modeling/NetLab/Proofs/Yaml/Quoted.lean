import NetLab.Proofs.Yaml.Places
import NetLab.Yaml.Writer

/-!
# Quoted scalars are read back

Between quotes the reader folds lines: of the blanks around a line break only breaks are left, and a
line feed that stands alone becomes a space.  The writer uses single quotes only for texts without
line feeds in which no space stands next to a break, so nothing is folded away
(`scanQuoted_single`).  Between double quotes it writes no break at all, and each escape stands for
the character that it was written for (`scanQuoted_double`).
-/

namespace NetLab.Yaml

/-! ## Steps of the reader -/

section Steps

variable {column : Nat} {double : Bool} {read text : List Char} {line : Nat}

theorem scanQuoted_gap {c : Char} (hcolumn : 0 < column) (hc : (isSpace c || isBreak c) = true)
    {gap : Gap} {place : Place}
    (hscan : Gap.scan 0 .empty (c :: text) ⟨c :: text, column, line⟩ = some (gap, place))
    (hlength : place.rest.length < (c :: text).length) :
    scanQuoted double read ⟨c :: text, column, line⟩ =
      scanQuoted double (gap.text.reverse ++ read) place := by
  rw [scanQuoted]
  simp only [@Place.atMark_of_pos ⟨_, column, line⟩ hcolumn, hc, hscan, if_pos hlength]
  rfl

theorem scanQuoted_char {c : Char} (hcolumn : 0 < column) (hspace : isSpace c = false)
    (hbreak : isBreak c = false) (hquote : c ≠ if double then '"' else '\'')
    (hescape : double = true → c ≠ '\\') :
    scanQuoted double read ⟨c :: text, column, line⟩ =
      scanQuoted double (c :: read) ⟨text, column + 1, line⟩ := by
  rw [scanQuoted]
  simp only [@Place.atMark_of_pos ⟨_, column, line⟩ hcolumn, hspace, hbreak,
    Place.next_of_not_break hbreak]
  cases double with
  | false =>
    have hquote : c ≠ '\'' := hquote
    simp [hquote]
  | true =>
    have hquote : c ≠ '"' := hquote
    simp [hquote, hescape rfl]

theorem scanQuoted_spaces (hcolumn : 0 < column) (count : Nat) {c : Char}
    (hc : isSpace c = false ∧ isBreak c = false) :
    scanQuoted double read ⟨List.replicate count ' ' ++ c :: text, column, line⟩ =
      scanQuoted double (List.replicate count ' ' ++ read) ⟨c :: text, column + count, line⟩ := by
  cases count with
  | zero => rfl
  | succ count =>
    have hscan := Gap.scan_spaces (count + 1) hc 0 [] text column line
    have hlength :
        (c :: text).length < (' ' :: (List.replicate count ' ' ++ c :: text)).length := by
      simp only [List.length_cons, List.length_append]
      omega
    rw [List.replicate_succ, List.cons_append] at hscan ⊢
    rw [scanQuoted_gap hcolumn (by decide) hscan hlength]
    simp [Gap.text, List.reverse_cons, ← List.replicate_succ', List.replicate_succ]

/-- A space inside of a line stands for itself, whatever spaces come after it. -/
theorem scanQuoted_space (hcolumn : 0 < column) (count : Nat) {c : Char}
    (hc : isSpace c = false ∧ isBreak c = false) :
    scanQuoted double read ⟨' ' :: (List.replicate count ' ' ++ c :: text), column, line⟩ =
      scanQuoted double (' ' :: read)
        ⟨List.replicate count ' ' ++ c :: text, column + 1, line⟩ := by
  have hall : scanQuoted double read
      ⟨' ' :: (List.replicate count ' ' ++ c :: text), column, line⟩ =
      scanQuoted double (List.replicate (count + 1) ' ' ++ read)
        ⟨c :: text, column + (count + 1), line⟩ :=
    scanQuoted_spaces hcolumn (count + 1) hc
  rw [hall, scanQuoted_spaces (by omega) count hc, List.replicate_succ', List.append_assoc,
    Nat.add_assoc, Nat.add_comm 1]
  rfl

/-- The closing quote. -/
theorem scanQuoted_end (hcolumn : 0 < column) (htext : double = false → text.head? ≠ some '\'') :
    scanQuoted double read ⟨(if double then '"' else '\'') :: text, column, line⟩ =
      some (read.reverse, ⟨text, column + 1, line⟩) := by
  rw [scanQuoted]
  cases double with
  | false =>
    simp [@Place.atMark_of_pos ⟨_, column, line⟩ hcolumn, isSpace, isBreak, Place.next, htext rfl]
  | true =>
    simp [@Place.atMark_of_pos ⟨_, column, line⟩ hcolumn, isSpace, isBreak, Place.next]

/-- Between single quotes two quotes stand for one. -/
theorem scanQuoted_quotes (hcolumn : 0 < column) :
    scanQuoted false read ⟨'\'' :: '\'' :: text, column, line⟩ =
      scanQuoted false ('\'' :: read) ⟨text, column + 2, line⟩ := by
  rw [scanQuoted]
  simp only [@Place.atMark_of_pos ⟨_, column, line⟩ hcolumn, Place.ahead, List.head?_cons]
  have hlength : text.length < text.length + 1 + 1 := by omega
  simp [show isSpace '\'' = false by decide, show isBreak '\'' = false by decide, hlength]

/-- Between double quotes an escape stands for its character. -/
theorem scanQuoted_escape (hcolumn : 0 < column) {letter c : Char} {digits : List Char}
    (hbreak : isBreak letter = false)
    (hescape : escape? (letter :: (digits ++ text)) = some (c, digits.length + 1)) :
    scanQuoted true read ⟨'\\' :: letter :: (digits ++ text), column, line⟩ =
      scanQuoted true (c :: read) ⟨text, column + (digits.length + 1 + 1), line⟩ := by
  rw [scanQuoted]
  simp only [@Place.atMark_of_pos ⟨_, column, line⟩ hcolumn, List.head?_cons, hescape, Place.ahead]
  have hlength : text.length < digits.length + text.length + 1 + 1 := by omega
  simp [show isSpace '\\' = false by decide, show isBreak '\\' = false by decide, hbreak, hlength]

end Steps

/-! ## Double quotes -/

/-- The letter of an escape stands for the character that it was written for. -/
theorem escape?_of_escapeLetter? {c letter : Char} (h : escapeLetter? c = some letter)
    (text : List Char) : isPrintable letter = true ∧ isBreak letter = false ∧
      escape? (letter :: text) = some (c, 1) := by
  unfold escapeLetter? at h
  split at h
  case h_15 => cases h
  all_goals
    obtain rfl := Option.some.inj h
    exact ⟨by decide, by decide, rfl⟩

theorem codePoint?_hexPadded {width value : Nat} (hlength : (hexPadded width value).length = width)
    (hvalue : Text.valueOf? 16 (hexPadded width value) = some value) (hvalid : value.isValidChar)
    (text : List Char) :
    codePoint? width (hexPadded width value ++ text) = some (Char.ofNat value) := by
  rw [codePoint?, List.take_append_of_le_length (by omega), List.take_of_length_le (by omega),
    hvalue]
  simp [hlength, hvalid]

theorem hexPadded_two {value : Nat} (h : value < 0x100) :
    (hexPadded 2 value).all isPrintable = true ∧ (hexPadded 2 value).length = 2 ∧
      Text.valueOf? 16 (hexPadded 2 value) = some value := by
  revert value
  decide +kernel

/-- A character beyond the first 256 that does not print has four digits. -/
theorem mem_of_not_isPrintable {c : Char} (h : isPrintable c = false) (hc : 0x100 ≤ c.toNat) :
    c.toNat ∈ [0xFEFF, 0xFFFE, 0xFFFF] := by
  have hvalid : c.toNat < 0xD800 ∨ (0xDFFF < c.toNat ∧ c.toNat < 0x110000) := c.valid
  simp only [isPrintable, Bool.or_eq_false_iff, Bool.and_eq_false_iff, decide_eq_false_iff_not] at h
  simp only [List.mem_cons, List.not_mem_nil, or_false]
  omega

/-- A character that is not a space is written as it is, or as an escape that stands for it. -/
theorem doubleQuotedChar_cases {c : Char} (hc : c ≠ ' ') :
    (doubleQuotedChar c = [c] ∧ isPrintable c = true ∧ (isSpace c = false ∧ isBreak c = false) ∧
        c ≠ '"' ∧ c ≠ '\\') ∨
      ∃ letter digits, doubleQuotedChar c = '\\' :: letter :: digits ∧
        (letter :: digits).all isPrintable = true ∧ isBreak letter = false ∧
        ∀ text, escape? (letter :: (digits ++ text)) = some (c, digits.length + 1) := by
  have hvalid : c.toNat.isValidChar := c.valid
  rw [doubleQuotedChar]
  cases hletter : escapeLetter? c with
  | some letter =>
    have hescape := escape?_of_escapeLetter? hletter
    exact Or.inr ⟨letter, [], rfl, by simp [(hescape []).1], (hescape []).2.1,
      fun text => (hescape text).2.2⟩
  | none =>
    have hne : ∀ d, (escapeLetter? d).isSome = true → c ≠ d := by
      rintro d hd rfl
      rw [hletter] at hd
      cases hd
    by_cases hprint : isPrintable c = true
    · refine Or.inl ⟨if_pos hprint, hprint, ⟨?_, ?_⟩, hne _ (by decide), hne _ (by decide)⟩
      · simp [isSpace_of_isPrintable hprint, hc]
      · simp [isBreak, hne '\n' (by decide), hne '\u2028' (by decide), hne '\u2029' (by decide)]
    · rw [if_neg hprint]
      by_cases hbyte : c.toNat < 0x100
      · obtain ⟨hprints, hlength, hvalue⟩ := hexPadded_two hbyte
        refine Or.inr ⟨'x', hexPadded 2 c.toNat, if_pos hbyte, hprints, by decide, fun text => ?_⟩
        simp [escape?, escapeWidth?, codePoint?_hexPadded hlength hvalue hvalid, hlength]
      · have hmem := mem_of_not_isPrintable (by simpa using hprint) (by omega)
        have hfour : (hexPadded 4 c.toNat).all isPrintable = true ∧
            (hexPadded 4 c.toNat).length = 4 ∧
            Text.valueOf? 16 (hexPadded 4 c.toNat) = some c.toNat := by
          generalize c.toNat = value at hmem
          revert value
          decide +kernel
        obtain ⟨hprints, hlength, hvalue⟩ := hfour
        refine Or.inr ⟨'u', hexPadded 4 c.toNat, if_neg hbyte, hprints, by decide, fun text => ?_⟩
        simp [escape?, escapeWidth?, codePoint?_hexPadded hlength hvalue hvalid, hlength]

/-- Spaces between double quotes are followed by something else in the same line. -/
theorem exists_spaces_double (text rest : List Char) :
    ∃ count c tail, text.flatMap doubleQuotedChar ++ '"' :: rest =
      List.replicate count ' ' ++ c :: tail ∧ isSpace c = false ∧ isBreak c = false := by
  induction text with
  | nil => exact ⟨0, '"', rest, rfl, by decide, by decide⟩
  | cons c text ih =>
    rw [List.flatMap_cons, List.append_assoc]
    by_cases hc : c = ' '
    · obtain ⟨count, d, tail, heq, hd⟩ := ih
      subst hc
      exact ⟨count + 1, d, tail, by rw [heq]; rfl, hd⟩
    · rcases doubleQuotedChar_cases hc with ⟨heq, -, hblank, -⟩ | ⟨letter, digits, heq, -⟩
      · exact ⟨0, c, _, by rw [heq]; rfl, hblank⟩
      · exact ⟨0, '\\', _, by rw [heq]; rfl, by decide, by decide⟩

/-- **What stands between double quotes is read back**, character by character. -/
theorem scanQuoted_double (text rest : List Char) {column : Nat} (hcolumn : 0 < column)
    (read : List Char) (line : Nat) :
    ∃ after, scanQuoted true read
        ⟨text.flatMap doubleQuotedChar ++ '"' :: rest, column, line⟩ =
      some (read.reverse ++ text, ⟨rest, after, line⟩) := by
  induction text generalizing read column with
  | nil =>
    refine ⟨column + 1, ?_⟩
    rw [List.append_nil]
    exact @scanQuoted_end column true read rest line hcolumn (by simp)
  | cons c text ih =>
    rw [List.flatMap_cons, List.append_assoc]
    have hread : read.reverse ++ c :: text = (c :: read).reverse ++ text := by simp
    by_cases hc : c = ' '
    · subst hc
      obtain ⟨after, hafter⟩ := @ih (column + 1) (by omega) (' ' :: read)
      obtain ⟨count, d, tail, heq, hd⟩ := exists_spaces_double text rest
      refine ⟨after, ?_⟩
      rw [hread, ← hafter, heq]
      exact scanQuoted_space hcolumn count hd
    · rcases doubleQuotedChar_cases hc with ⟨heq, -, hblank, hquote, hslash⟩ |
        ⟨letter, digits, heq, -, hletter, hescape⟩
      · obtain ⟨after, hafter⟩ := @ih (column + 1) (by omega) (c :: read)
        refine ⟨after, ?_⟩
        rw [hread, ← hafter, heq]
        exact scanQuoted_char hcolumn hblank.1 hblank.2 hquote fun _ => hslash
      · obtain ⟨after, hafter⟩ := @ih (column + (digits.length + 1 + 1)) (by omega) (c :: read)
        refine ⟨after, ?_⟩
        rw [hread, ← hafter, heq]
        exact scanQuoted_escape hcolumn hletter (hescape _)

/-! ## Single quotes -/

/-- Nothing of the text is folded away: each character prints, there is no line feed, and no space
stands next to a break. -/
structure IsEven (text : List Char) : Prop where
  prints : ∀ c ∈ text, isPrintable c = true
  feed : '\n' ∉ text
  spaceBreak : hasSpaceBreak text = false
  breakSpace : hasBreakSpace text = false

namespace IsEven

variable {c : Char} {text : List Char}

theorem isSpace (h : IsEven (c :: text)) (hc : c ≠ ' ') : isSpace c = false := by
  simp [isSpace_of_isPrintable (h.prints c (by simp)), hc]

theorem ne_feed (h : IsEven (c :: text)) : c ≠ '\n' := by
  rintro rfl
  exact h.feed (by simp)

theorem tail (h : IsEven (c :: text)) : IsEven text := by
  refine ⟨fun d hd => h.prints d (by simp [hd]), fun hd => h.feed (by simp [hd]), ?_, ?_⟩
  · cases text with
    | nil => rfl
    | cons d text => exact (Bool.or_eq_false_iff.mp h.spaceBreak).2
  · cases text with
    | nil => rfl
    | cons d text => exact (Bool.or_eq_false_iff.mp h.breakSpace).2

theorem dropWhile (test : Char → Bool) (h : IsEven text) : IsEven (text.dropWhile test) := by
  induction text with
  | nil => exact h
  | cons c text ih =>
    rw [List.dropWhile_cons]
    split
    · exact ih h.tail
    · exact h

/-- No break comes after a space. -/
theorem isBreak_of_space {d : Char} (h : IsEven (' ' :: d :: text)) : isBreak d = false := by
  simpa using (Bool.or_eq_false_iff.mp h.spaceBreak).1

/-- No space comes after a break. -/
theorem head?_ne_space (h : IsEven (c :: text)) (hc : isBreak c = true) :
    text.head? ≠ some ' ' := by
  cases text with
  | nil => simp
  | cons d text => simpa [hc] using (Bool.or_eq_false_iff.mp h.breakSpace).1

end IsEven

section Single

variable {indent : Nat} {text : List Char}

/-- A character that is neither a space nor a break is written as something that begins with none of
them. -/
theorem singleQuotedBody_cons {c : Char} (hbreak : isBreak c = false) :
    singleQuotedBody indent false (c :: text) =
      (if c = '\'' then ['\'', '\''] else [c]) ++ singleQuotedBody indent false text := by
  simp [singleQuotedBody, hbreak]

/-- A break is written as it is; a line feed is written twice, unless it follows another break. -/
theorem singleQuotedBody_of_break {c : Char} (hbreak : isBreak c = true) {afterBreak : Bool}
    (hfeed : afterBreak = false → c ≠ '\n') :
    singleQuotedBody indent afterBreak (c :: text) = c :: singleQuotedBody indent true text := by
  cases afterBreak with
  | false => simp [singleQuotedBody, hbreak, hfeed rfl]
  | true => simp [singleQuotedBody, hbreak]

theorem exists_cons_single (h : IsEven text) (hspace : text.head? ≠ some ' ')
    (hbreak : ∀ c ∈ text.head?, isBreak c = false) (rest : List Char) :
    ∃ c tail, singleQuotedBody indent false text ++ '\'' :: rest = c :: tail ∧
      isSpace c = false ∧ isBreak c = false := by
  cases text with
  | nil => exact ⟨'\'', rest, rfl, by decide, by decide⟩
  | cons c text =>
    have hc : isBreak c = false := hbreak c rfl
    rw [singleQuotedBody_cons hc]
    by_cases hquote : c = '\''
    · subst hquote
      exact ⟨'\'', _, rfl, by decide, by decide⟩
    · rw [if_neg hquote]
      exact ⟨c, _, rfl, h.isSpace (by simpa using hspace), hc⟩

/-- Spaces between single quotes are followed by something else in the same line. -/
theorem exists_spaces_single (h : IsEven (' ' :: text)) (rest : List Char) :
    ∃ count c tail, singleQuotedBody indent false text ++ '\'' :: rest =
      List.replicate count ' ' ++ c :: tail ∧ isSpace c = false ∧ isBreak c = false := by
  induction text with
  | nil => exact ⟨0, '\'', rest, rfl, by decide, by decide⟩
  | cons c text ih =>
    by_cases hc : c = ' '
    · subst hc
      obtain ⟨count, d, tail, heq, hd⟩ := ih h.tail
      refine ⟨count + 1, d, tail, ?_, hd⟩
      rw [singleQuotedBody_cons (by decide), List.append_assoc, heq]
      rfl
    · obtain ⟨d, tail, heq, hd⟩ := @exists_cons_single indent (c :: text) h.tail (by simpa using hc)
        (by simpa using h.isBreak_of_space) rest
      exact ⟨0, d, tail, heq, hd⟩

theorem singleQuotedBody_fresh (hbreak : ∀ c ∈ text.head?, isBreak c = false) :
    singleQuotedBody indent true text =
      indentation indent ++ singleQuotedBody indent false text := by
  cases text with
  | nil => simp [singleQuotedBody]
  | cons c text => simp [singleQuotedBody, hbreak c rfl]

theorem scan_fresh (h : IsEven text) (hspace : text.head? ≠ some ' ')
    (hbreak : ∀ c ∈ text.head?, isBreak c = false) {breaks : List Char} (hbreaks : breaks ≠ [])
    (rest : List Char) (line : Nat) :
    Gap.scan 0 ⟨[], breaks⟩ (singleQuotedBody indent true text ++ '\'' :: rest)
        ⟨singleQuotedBody indent true text ++ '\'' :: rest, 0, line⟩ =
      some (⟨[], breaks⟩,
        ⟨singleQuotedBody indent false text ++ '\'' :: rest, indent, line⟩) := by
  obtain ⟨c, tail, heq, hc⟩ := @exists_cons_single indent text h hspace hbreak rest
  have hne : c ≠ ' ' := by
    rintro rfl
    cases hc.1
  have hplace := @Place.afterWhile_indentation indent (c :: tail) (by simpa using hne) 0
  rw [singleQuotedBody_fresh hbreak, List.append_assoc, heq, indentation,
    Gap.scan_indentation 0 hbreaks _ (by simpa [Place.onLine, hplace 0] using hc), hplace line,
    Nat.zero_add]

/-- A gap over breaks keeps the breaks, and nothing of the indentation after them. -/
theorem scan_breaks (h : IsEven text) (hspace : text.head? ≠ some ' ') {breaks : List Char}
    (hbreaks : breaks ≠ []) (rest : List Char) (line : Nat) :
    ∃ after, Gap.scan 0 ⟨[], breaks⟩ (singleQuotedBody indent true text ++ '\'' :: rest)
        ⟨singleQuotedBody indent true text ++ '\'' :: rest, 0, line⟩ =
      some (⟨[], breaks ++ text.takeWhile isBreak⟩,
        ⟨singleQuotedBody indent false (text.dropWhile isBreak) ++ '\'' :: rest, indent, after⟩) := by
  induction text generalizing breaks line with
  | nil => exact ⟨line, by simpa using scan_fresh h hspace (by simp) hbreaks rest line⟩
  | cons c text ih =>
    by_cases hc : isBreak c = true
    · obtain ⟨after, hafter⟩ :=
        @ih h.tail (h.head?_ne_space hc) (breaks ++ [c]) (by simp) (line + 1)
      refine ⟨after, ?_⟩
      rw [singleQuotedBody_of_break hc (by simp), List.cons_append, Gap.scan_break hc, hafter,
        List.takeWhile_cons_of_pos hc, List.dropWhile_cons_of_pos hc, List.append_assoc,
        List.singleton_append]
    · refine ⟨line, ?_⟩
      rw [List.takeWhile_cons_of_neg hc, List.dropWhile_cons_of_neg hc, List.append_nil]
      exact scan_fresh h hspace (by simpa using hc) hbreaks rest line

theorem length_singleQuotedBody_le :
    (singleQuotedBody indent false (text.dropWhile isBreak)).length ≤
      (singleQuotedBody indent true text).length := by
  induction text with
  | nil => simp [singleQuotedBody]
  | cons c text ih =>
    by_cases hc : isBreak c = true
    · rw [List.dropWhile_cons_of_pos hc, singleQuotedBody_of_break hc (by simp), List.length_cons]
      omega
    · rw [List.dropWhile_cons_of_neg hc, singleQuotedBody_fresh (by simpa using hc),
        List.length_append]
      omega

end Single

section Steps

variable {indent column : Nat} {c : Char} {text : List Char} (h : IsEven (c :: text))
  (hcolumn : 0 < column) (rest read : List Char) (line : Nat)
include h hcolumn

/-- A step over a break and all breaks right after it. -/
theorem scanQuoted_break (hbreak : isBreak c = true) :
    ∃ after, scanQuoted false read
        ⟨singleQuotedBody indent false (c :: text) ++ '\'' :: rest, column, line⟩ =
      scanQuoted false ((text.takeWhile isBreak).reverse ++ c :: read)
        ⟨singleQuotedBody indent false (text.dropWhile isBreak) ++ '\'' :: rest, indent, after⟩ := by
  have hspace := h.head?_ne_space hbreak
  have hbody := @length_singleQuotedBody_le indent text
  obtain ⟨after, hscan⟩ := @scan_breaks indent text h.tail hspace [c] (by simp) rest (line + 1)
  refine ⟨after, ?_⟩
  rw [singleQuotedBody_of_break hbreak (by simp [h.ne_feed]), List.cons_append,
    scanQuoted_gap hcolumn (by simp [hbreak])
      ((Gap.scan_break hbreak 0 .empty _ _ _).trans hscan)
      (by simp only [List.length_cons, List.length_append]; omega),
    List.singleton_append, Gap.text_of_ne_feed h.ne_feed, List.reverse_cons, List.append_assoc,
    List.singleton_append]

/-- A step over a character that is no break. -/
theorem scanQuoted_even (hbreak : isBreak c = false) :
    ∃ next, 0 < next ∧ scanQuoted false read
        ⟨singleQuotedBody indent false (c :: text) ++ '\'' :: rest, column, line⟩ =
      scanQuoted false (c :: read)
        ⟨singleQuotedBody indent false text ++ '\'' :: rest, next, line⟩ := by
  rw [singleQuotedBody_cons hbreak, List.append_assoc]
  by_cases hspace : c = ' '
  · subst hspace
    obtain ⟨count, d, tail, heq, hd⟩ := @exists_spaces_single indent text h rest
    refine ⟨column + 1, Nat.succ_pos column, ?_⟩
    rw [heq]
    exact scanQuoted_space hcolumn count hd
  · by_cases hquote : c = '\''
    · subst hquote
      exact ⟨column + 2, Nat.succ_pos _, scanQuoted_quotes hcolumn⟩
    · refine ⟨column + 1, Nat.succ_pos column, ?_⟩
      rw [if_neg hquote]
      exact scanQuoted_char hcolumn (h.isSpace hspace) hbreak hquote (by simp)

end Steps

/-- **What stands between single quotes is read back**, character by character. -/
theorem scanQuoted_single {indent : Nat} (hindent : 0 < indent) {text : List Char} (h : IsEven text)
    {rest : List Char} (hrest : rest.head? ≠ some '\'') {column : Nat} (hcolumn : 0 < column)
    (read : List Char) (line : Nat) :
    ∃ after last, scanQuoted false read
        ⟨singleQuotedBody indent false text ++ '\'' :: rest, column, line⟩ =
      some (read.reverse ++ text, ⟨rest, after, last⟩) := by
  -- The breaks of a gap are read at one go, so the induction is on the length.
  induction hlength : text.length using Nat.strongRecOn generalizing text column read line with
  | ind length ih =>
    cases text with
    | nil =>
      refine ⟨column + 1, line, ?_⟩
      rw [List.append_nil]
      exact @scanQuoted_end column false read rest line hcolumn fun _ => hrest
    | cons c text =>
      have hshorter : text.length < length := by
        rw [← hlength, List.length_cons]
        omega
      cases hbreak : isBreak c with
      | true =>
        have hdrop : (text.dropWhile isBreak).length ≤ text.length :=
          (List.dropWhile_sublist isBreak).length_le
        obtain ⟨line', hstep⟩ := @scanQuoted_break indent _ _ _ h hcolumn rest read line hbreak
        obtain ⟨after, last, hafter⟩ := ih _ (Nat.lt_of_le_of_lt hdrop hshorter)
          (h.tail.dropWhile isBreak) hindent ((text.takeWhile isBreak).reverse ++ c :: read) line' rfl
        refine ⟨after, last, ?_⟩
        rw [hstep, hafter]
        simp
      | false =>
        obtain ⟨next, hnext, hstep⟩ := @scanQuoted_even indent _ _ _ h hcolumn rest read line hbreak
        obtain ⟨after, last, hafter⟩ := ih _ hshorter h.tail hnext (c :: read) line rfl
        refine ⟨after, last, ?_⟩
        rw [hstep, hafter]
        simp

theorem isEven_of_isSingleQuotable {text : List Char} (hfeed : '\n' ∉ text)
    (h : isSingleQuotable text = true) : IsEven text := by
  simp only [isSingleQuotable, isClean, Bool.and_eq_true, List.all_eq_true, Bool.not_eq_true'] at h
  obtain ⟨⟨hprint, hspaceBreak⟩, hbreakSpace⟩ := h
  exact ⟨hprint, hfeed, hspaceBreak, hbreakSpace⟩

/-! ## Pieces -/

section Pieces

variable {limit : Nat} {rest : List Char} (hrest : Continues limit rest)
  (least column line : Nat) (fresh : Bool) (anchors : List Anchor)
include hrest

theorem reads_quoted (double : Bool) {body text : List Char}
    (h : ∃ after last, scanQuoted double [] ⟨body, column + 1, line⟩ =
      some (text, ⟨'\n' :: rest, after, last⟩)) :
    Reads (readPiece least .none
        ⟨⟨(if double then '"' else '\'') :: body, column, line⟩, fresh, anchors⟩)
      (.scalar (String.ofList text) false none) rest anchors := by
  obtain ⟨after, last, hscan⟩ := h
  refine ⟨_, last + 1, ?_, State.skip_line hrest after last false anchors⟩
  rw [readPiece]
  cases double
  all_goals
    simp [Properties.isNext, State.head?, readScalar, Place.next_of_not_break, isBreak, hscan]
    rfl

/-- **A text between single quotes is read back.** -/
theorem reads_singleQuoted {indent : Nat} (hindent : 0 < indent) {text : List Char}
    (h : IsEven text) :
    Reads (readPiece least .none
        ⟨⟨singleQuoted indent text ++ '\n' :: rest, column, line⟩, fresh, anchors⟩)
      (.scalar (String.ofList text) false none) rest anchors := by
  simp only [singleQuoted, List.cons_append, List.append_assoc, List.nil_append]
  exact reads_quoted hrest least column line fresh anchors false
    (scanQuoted_single hindent h (by simp) (by omega) [] line)

/-- **A text between double quotes is read back.** -/
theorem reads_doubleQuoted (text : List Char) :
    Reads (readPiece least .none
        ⟨⟨doubleQuoted text ++ '\n' :: rest, column, line⟩, fresh, anchors⟩)
      (.scalar (String.ofList text) false none) rest anchors := by
  obtain ⟨after, hscan⟩ :=
    scanQuoted_double text ('\n' :: rest) (Nat.succ_pos column) [] line
  simp only [doubleQuoted, List.cons_append, List.append_assoc, List.nil_append]
  exact reads_quoted hrest least column line fresh anchors true ⟨after, line, hscan⟩

end Pieces

end NetLab.Yaml
