import NetLab.Proofs.Yaml.Places
import NetLab.Yaml.Writer

/-!
# Plain scalars are read back

A text is written as it is only where none of its parts belongs to the syntax (`isPlain`).  The
reader goes from word to word: a word ends where a space or the line ends, since no colon in it has
a blank after it, and no word begins with a number sign (`scanPlain_words`).  The scalar ends with
its line, because the next line stands further left.

Keys are plain scalars too, of one word each, and end at their colon.
-/

namespace NetLab.Yaml

/-! ## Words -/

/-- The text is one or more words with spaces between them. -/
inductive Words : List Char → Prop where
  | last {word : List Char} (hne : word ≠ []) (hspace : ' ' ∉ word) : Words word
  | more {word text : List Char} (count : Nat) (hne : word ≠ []) (hspace : ' ' ∉ word)
      (h : Words text) : Words (word ++ (List.replicate (count + 1) ' ' ++ text))

namespace Words

theorem cons {c : Char} (hc : c ≠ ' ') {text : List Char} (h : Words text) : Words (c :: text) := by
  cases h with
  | last hne hspace => exact .last (by simp) (by simp [hspace, Ne.symm hc])
  | more count hne hspace h =>
    exact @Words.more (c :: _) _ count (by simp) (by simp [hspace, Ne.symm hc]) h

theorem exists_of_getLast? {text : List Char} (hne : text ≠ []) (hlast : text.getLast? ≠ some ' ') :
    ∃ count words, text = List.replicate count ' ' ++ words ∧ Words words := by
  induction text with
  | nil => exact absurd rfl hne
  | cons c rest ih =>
    by_cases hrest : rest = []
    · subst hrest
      have hc : c ≠ ' ' := by simpa using hlast
      exact ⟨0, [c], rfl, .last (by simp) (by simp [Ne.symm hc])⟩
    · rw [List.getLast?_cons_of_ne_nil hrest] at hlast
      obtain ⟨count, words, rfl, hwords⟩ := ih hrest hlast
      by_cases hc : c = ' '
      · exact ⟨count + 1, words, by rw [hc]; rfl, hwords⟩
      · refine ⟨0, _, rfl, ?_⟩
        cases count with
        | zero => exact hwords.cons hc
        | succ count =>
          exact @Words.more [c] _ count (by simp) (by simp [Ne.symm hc]) hwords

theorem of_ends {text : List Char} (hne : text ≠ []) (hfirst : text.head? ≠ some ' ')
    (hlast : text.getLast? ≠ some ' ') : Words text := by
  obtain ⟨count, words, rfl, hwords⟩ := exists_of_getLast? hne hlast
  cases count with
  | zero => exact hwords
  | succ count => simp [List.replicate_succ] at hfirst

theorem exists_cons {text : List Char} (h : Words text) : ∃ c rest, text = c :: rest ∧ c ≠ ' ' := by
  cases h with
  | last hne hspace =>
    obtain ⟨c, rest, rfl⟩ := List.exists_cons_of_ne_nil hne
    exact ⟨c, rest, rfl, fun heq => hspace (by simp [heq])⟩
  | more count hne hspace =>
    obtain ⟨c, rest, rfl⟩ := List.exists_cons_of_ne_nil hne
    exact ⟨c, _, rfl, fun heq => hspace (by simp [heq])⟩

end Words

/-! ## Marks -/

theorem blankAhead_append_newline (text rest : List Char) :
    blankAhead (text ++ '\n' :: rest) = blankAhead text := by
  cases text <;> rfl

theorem hasMark_of_append {text rest : List Char} {blank : Bool}
    (h : hasMark false blank (text ++ ' ' :: rest) = false) : hasMark false true rest = false := by
  induction text generalizing blank with
  | nil =>
    simp only [List.nil_append, hasMark, Bool.or_eq_false_iff] at h
    exact h.2
  | cons c text ih =>
    simp only [List.cons_append, hasMark, Bool.or_eq_false_iff] at h
    exact ih h.2

/-- What a plain text consists of. -/
structure IsBare (text : List Char) : Prop where
  words : Words text
  inLine : ∀ c ∈ text, isPrintable c = true ∧ isBreak c = false
  unmarked : hasMark true true text = false

theorem isBare_of_isPlain {text : List Char} (hne : text ≠ []) (h : isPlain text = true) :
    IsBare text := by
  simp only [isPlain, isClean, Bool.and_eq_true, Bool.not_eq_true', bne_iff_ne,
    List.all_eq_true, List.any_eq_false, Bool.not_eq_true] at h
  obtain ⟨⟨⟨⟨⟨⟨hprint, -⟩, hbreak⟩, hfirst⟩, hlast⟩, -⟩, hmark⟩ := h
  exact ⟨.of_ends hne hfirst hlast, fun c hc => ⟨hprint c hc, hbreak c hc⟩, hmark⟩

namespace IsBare

/-- The first character is no indicator, and where it may be one it has no blank after it. -/
theorem exists_cons {text : List Char} (h : IsBare text) :
    ∃ c rest, text = c :: rest ∧ beginsToken c = true ∧ isIndicator c = false ∧
      (c = '-' ∨ c = '?' ∨ c = ':' → blankAhead rest = false) := by
  obtain ⟨c, rest, rfl, hspace⟩ := h.words.exists_cons
  obtain ⟨hprint, hbreak⟩ := h.inLine c (by simp)
  have hmark := h.unmarked
  simp only [hasMark, isMarkAt, if_true, Bool.or_eq_false_iff, Bool.and_eq_false_iff,
    decide_eq_false_iff_not] at hmark
  obtain ⟨⟨hcolon, hindicator, hdash⟩, -⟩ := hmark
  have htab : c ≠ '\t' := ne_of_test hprint (by decide)
  have hnumber : c ≠ '#' := by
    rintro rfl
    cases hindicator
  refine ⟨c, rest, rfl, ?_, hindicator, ?_⟩
  · simp [beginsToken, hbreak, isSpace, hspace, htab, hnumber,
      ne_of_test hprint (show isPrintable '\ufeff' = false by decide)]
  · rintro (rfl | rfl | rfl)
    · simpa using hdash
    · simpa using hdash
    · simpa using hcolon

/-- Further on no word begins with a number sign. -/
theorem unmarked_words {text : List Char} (h : IsBare text) : hasMark false true text = false := by
  obtain ⟨c, rest, rfl, htoken, -⟩ := h.exists_cons
  have hmark := h.unmarked
  simp only [beginsToken, Bool.and_eq_true, bne_iff_ne] at htoken
  simp only [hasMark, isMarkAt, Bool.or_eq_false_iff] at hmark ⊢
  exact ⟨⟨hmark.1.1, by simp [htoken.1.2]⟩, hmark.2⟩

end IsBare

/-! ## Scanning -/

/-- A word ends where a blank follows. -/
theorem plainWord?_of_unmarked {word rest : List Char} {blank : Bool}
    (hword : ∀ c ∈ word, isSpace c = false ∧ isBreak c = false)
    (hmark : hasMark false blank (word ++ rest) = false) (hrest : blankAhead rest = true)
    (text : List Char) : plainWord? false (word ++ (rest ++ '\n' :: text)) = some word := by
  induction word generalizing blank with
  | nil =>
    cases rest with
    | nil => rfl
    | cons c rest =>
      have hend : (isSpace c || isBreak c) = true := hrest
      simp only [List.nil_append, List.cons_append, plainWord?, hend, if_true]
  | cons c word ih =>
    obtain ⟨hspace, hbreak⟩ := hword c (by simp)
    simp only [List.cons_append, hasMark, isMarkAt, Bool.or_eq_false_iff] at hmark
    have hcolon : (decide (c = ':') && blankAhead (word ++ (rest ++ '\n' :: text))) = false := by
      rw [← List.append_assoc, blankAhead_append_newline]
      exact hmark.1.1
    rw [List.cons_append, plainWord?, ih (fun d hd => hword d (by simp [hd])) hmark.2]
    simp [hspace, hbreak, hcolon]

/-- A step over one word, and the gap after it. -/
theorem scanPlain_word {word rest : List Char} (hne : word ≠ []) (hspace : ' ' ∉ word)
    (hline : ∀ c ∈ word, isPrintable c = true ∧ isBreak c = false)
    (hmark : hasMark false true (word ++ rest) = false) (hrest : blankAhead rest = true)
    {column : Nat} (hcolumn : 0 < column) {least line : Nat} (read : List Char) (gap : Gap)
    {text : List Char} {next : Gap} {place : Place}
    (hscan : Gap.scan least .empty (rest ++ '\n' :: text)
      ⟨rest ++ '\n' :: text, column + word.length, line⟩ = some (next, place))
    (hnext : next ≠ .empty) :
    scanPlain false least read gap ⟨word ++ (rest ++ '\n' :: text), column, line⟩ =
      if place.column < least then
        some ⟨read ++ gap.text ++ word, place, !next.breaks.isEmpty⟩
      else if place.rest.length < (word ++ (rest ++ '\n' :: text)).length then
        scanPlain false least (read ++ gap.text ++ word) next place
      else none := by
  have hword : ∀ c ∈ word, isSpace c = false ∧ isBreak c = false := by
    intro c hc
    obtain ⟨hprint, hbreak⟩ := hline c hc
    refine ⟨?_, hbreak⟩
    rw [isSpace_of_isPrintable hprint, decide_eq_false_iff_not]
    rintro rfl
    exact hspace hc
  obtain ⟨c, more, rfl⟩ := List.exists_cons_of_ne_nil hne
  have hnumber : c ≠ '#' := by
    rintro rfl
    cases hmark
  rw [scanPlain]
  simp only [@Place.atMark_of_pos ⟨_, column, line⟩ hcolumn,
    plainWord?_of_unmarked hword hmark hrest text, Place.ahead_append, hscan, if_neg hnext]
  simp [hnumber]

/-- **Words are read to their end**, and the scalar ends with its line. -/
theorem scanPlain_words {text rest : List Char} {limit least : Nat} (hwords : Words text)
    (hline : ∀ c ∈ text, isPrintable c = true ∧ isBreak c = false)
    (hmark : hasMark false true text = false) (hrest : Continues limit rest)
    (hlimit : limit < least) {column : Nat} (hcolumn : least ≤ column) (read : List Char)
    (gap : Gap)
    (line : Nat) :
    scanPlain false least read gap ⟨text ++ '\n' :: rest, column, line⟩ =
      some ⟨read ++ gap.text ++ text, .onLine (line + 1) rest, true⟩ := by
  have hpos : 0 < column := by omega
  have hleft : (Place.onLine (line + 1) rest).column < least :=
    Nat.lt_of_le_of_lt hrest.column_le hlimit
  induction hwords generalizing column read gap with
  | @last word hne hspace =>
    have hstep := @scanPlain_word word [] hne hspace hline (by simpa using hmark) rfl column hpos
      least
      line read gap rest _ _ (Gap.scan_line hrest least .empty (column + word.length) line)
      (by simp [Gap.empty])
    simpa [hleft, Gap.empty] using hstep
  | @more word text count hne hspace hwords ih =>
    have hmark' : hasMark false true text = false := by
      refine @hasMark_of_append (word ++ List.replicate count ' ') text true ?_
      simpa [List.replicate_succ'] using hmark
    have hscan : Gap.scan least .empty (List.replicate (count + 1) ' ' ++ text ++ '\n' :: rest)
        ⟨List.replicate (count + 1) ' ' ++ text ++ '\n' :: rest, column + word.length, line⟩ =
        some (⟨List.replicate (count + 1) ' ', []⟩,
          ⟨text ++ '\n' :: rest, column + word.length + (count + 1), line⟩) := by
      obtain ⟨c, tail, rfl, hc⟩ := hwords.exists_cons
      obtain ⟨hprint, hbreak⟩ := hline c (by simp)
      have hspace := isSpace_of_isPrintable hprint
      rw [List.append_assoc]
      exact Gap.scan_spaces (count + 1) ⟨by simpa [hc] using hspace, hbreak⟩ least []
        (tail ++ '\n' :: rest) (column + word.length) line
    have hstep := scanPlain_word hne hspace (fun c hc => hline c (by simp [hc])) hmark
      (by simp [List.replicate_succ, blankAhead, isSpace]) hpos read gap hscan
      (by simp [Gap.empty, List.replicate_succ])
    rw [List.append_assoc, hstep, if_neg (by simp; omega), if_pos (by simp; omega),
      ih (fun c hc => hline c (by simp [hc])) hmark' (by omega) _ _ (by omega)]
    simp [Gap.text]

/-! ## Pieces -/

/-- A piece that begins as a plain scalar is one. -/
theorem readPiece_of_scanPlain {c : Char} {text : List Char} (htoken : beginsToken c = true)
    (hindicator : isIndicator c = false)
    (hafter : c = '-' ∨ c = '?' ∨ c = ':' → blankAhead text = false) {least column line : Nat}
    {plain : Plain} (hscan : scanPlain false least [] .empty ⟨c :: text, column, line⟩ = some plain)
    (fresh : Bool) (anchors : List Anchor) :
    readPiece least .none ⟨⟨c :: text, column, line⟩, fresh, anchors⟩ =
      some (.scalar (String.ofList plain.text) true none,
        ⟨plain.place, plain.freshLine, anchors⟩) := by
  have hne : ∀ d, isIndicator d = true → c ≠ d := fun d hd => (ne_of_test hd hindicator).symm
  have hbegins : beginsPlain false (c :: text) = true := by
    rw [beginsPlain, isSpace_of_beginsToken htoken, isBreak_of_beginsToken htoken]
    by_cases hmark : c = '-' ∨ c = '?' ∨ c = ':'
    · rw [hafter hmark]
      rcases hmark with rfl | rfl | rfl <;> rfl
    · simp only [not_or] at hmark
      simp [hmark, hindicator]
  have hscalar : readScalar false least .none ⟨⟨c :: text, column, line⟩, fresh, anchors⟩ =
      some (.scalar (String.ofList plain.text) true none,
        ⟨plain.place, plain.freshLine, anchors⟩) := by
    rw [readScalar]
    simp only [State.head?, List.head?_cons]
    split
    · rename_i heq
      exact absurd (Option.some.inj heq) (hne _ (by decide))
    · rename_i heq
      exact absurd (Option.some.inj heq) (hne _ (by decide))
    · simp [State.rest, hbegins, hscan, Properties.reading, State.fill, Properties.none, State.move]
  rw [readPiece]
  simp only [Properties.isNext, State.head?, List.head?_cons, Option.some.injEq,
    hne '&' (by decide), hne '!' (by decide), decide_false, Bool.or_false, Bool.false_eq_true,
    if_false]
  split
  · rename_i heq
    exact absurd (Option.some.inj heq) (hne _ (by decide))
  · rename_i heq
    exact absurd (Option.some.inj heq) (hne _ (by decide))
  · rename_i heq
    exact absurd (Option.some.inj heq) (hne _ (by decide))
  · exact hscalar

/-- **A bare text is read back** as a plain scalar. -/
theorem readPiece_plain {text rest : List Char} (h : IsBare text) {limit least column : Nat}
    (hrest : Continues limit rest) (hlimit : limit < least) (hcolumn : least ≤ column) (line : Nat)
    (fresh : Bool) (anchors : List Anchor) :
    readPiece least .none ⟨⟨text ++ '\n' :: rest, column, line⟩, fresh, anchors⟩ =
      some (.scalar (String.ofList text) true none, .onLine (line + 1) rest anchors) := by
  have hscan :=
    scanPlain_words h.words h.inLine h.unmarked_words hrest hlimit hcolumn [] .empty line
  obtain ⟨c, more, rfl, htoken, hindicator, hafter⟩ := h.exists_cons
  refine readPiece_of_scanPlain htoken hindicator (fun hmark => ?_) hscan fresh anchors
  exact (blankAhead_append_newline more rest).trans (hafter hmark)

/-! ## Keys -/

/-- A word that may be written as a key: it begins with a letter and is not too long. -/
def isKey (key : List Char) : Bool :=
  (key.head?.map Char.isAlpha).getD false && key.all isNameChar && key.length ≤ maxKeyLength

theorem exists_cons_of_isKey {key : List Char} (h : isKey key = true) :
    ∃ c rest, key = c :: rest ∧ c.isAlpha = true ∧ (∀ d ∈ key, isNameChar d = true) ∧
      key.length ≤ maxKeyLength := by
  simp only [isKey, Bool.and_eq_true, List.all_eq_true, decide_eq_true_eq] at h
  obtain ⟨⟨hfirst, hname⟩, hlength⟩ := h
  cases key with
  | nil => cases hfirst
  | cons c rest => exact ⟨c, rest, rfl, by simpa using hfirst, hname, hlength⟩

theorem isIndicator_of_isAlpha {c : Char} (h : c.isAlpha = true) : isIndicator c = false := by
  simp only [isIndicator, isFlowMark, Bool.or_eq_false_iff, decide_eq_false_iff_not]
  and_intros <;> exact ne_of_test h (by decide)

theorem plainWord?_key {key : List Char} (hname : ∀ c ∈ key, isNameChar c = true)
    {text : List Char} (hblank : blankAhead text = true) :
    plainWord? false (key ++ ':' :: text) = some key := by
  induction key with
  | nil => simp [plainWord?, isSpace, isBreak, hblank]
  | cons c key ih =>
    have htoken := beginsToken_of_isNameChar (hname c (by simp))
    have hcolon : c ≠ ':' := ne_of_test (hname c (by simp)) (by decide)
    rw [List.cons_append, plainWord?, ih fun d hd => hname d (by simp [hd])]
    simp [isSpace_of_beginsToken htoken, isBreak_of_beginsToken htoken, hcolon]

/-- **A key is read back**, up to after its colon. -/
theorem readKey_key {key text : List Char} (h : isKey key = true) (hblank : blankAhead text = true)
    (least column line : Nat) (anchors : List Anchor) :
    readKey least ⟨⟨key ++ ':' :: text, column, line⟩, true, anchors⟩ =
      some (.scalar (String.ofList key) true none,
        ⟨⟨text, column + key.length + 1, line⟩, false, anchors⟩) := by
  obtain ⟨c, rest, rfl, halpha, hname, hlength⟩ := exists_cons_of_isKey h
  have hindicator := isIndicator_of_isAlpha halpha
  have hscan : scanPlain false least [] .empty ⟨c :: rest ++ ':' :: text, column, line⟩ =
      some ⟨c :: rest, ⟨':' :: text, column + (c :: rest).length, line⟩, false⟩ := by
    have hgap : Gap.scan least .empty (':' :: text)
        ⟨':' :: text, column + (c :: rest).length, line⟩ = _ :=
      Gap.scan_end (by simp [isSpace, isBreak]) least .empty _
    have hnumber : c ≠ '#' := ne_of_test halpha (by decide)
    rw [scanPlain]
    simp only [plainWord?_key hname hblank, Place.ahead_append, hgap]
    simp [Place.atMark_of_ne (ne_of_test halpha (show Char.isAlpha '-' = false by decide)),
      Place.atMark_of_ne (ne_of_test halpha (show Char.isAlpha '.' = false by decide)), hnumber,
      Gap.text, Gap.empty]
  have hafter : c = '-' ∨ c = '?' ∨ c = ':' → blankAhead (rest ++ ':' :: text) = false := by
    rintro (rfl | rfl | rfl) <;> cases halpha
  have hpiece := readPiece_of_scanPlain (beginsToken_of_isNameChar (hname c (by simp))) hindicator
    hafter hscan true anchors
  have hskip : State.skip false ⟨⟨':' :: text, column + (c :: rest).length, line⟩, false, anchors⟩ =
      ⟨⟨':' :: text, column + (c :: rest).length, line⟩, false, anchors⟩ :=
    State.skip_of_beginsToken (by simp [State.rest, beginsToken, isBreak, isSpace]) false
  have hnext := Place.next_of_not_break (show isBreak ':' = false by decide) text
    (column + (c :: rest).length) line
  have hsize : (c :: rest ++ ':' :: text).length - (':' :: text).length ≤ maxKeyLength := by
    simp only [List.length_append, Nat.add_sub_cancel]
    exact hlength
  rw [readKey, if_pos rfl]
  simp only [List.cons_append] at hpiece hsize ⊢
  simp only [hpiece, hskip, endsKey, State.head?, State.size, hsize]
  simpa [Place.atIndicator, hblank, State.move] using hnext

end NetLab.Yaml
