import NetLab.Yaml.Reader

/-!
# Between tokens

The writer puts every node on lines of its own, so what follows a node is the end of the text or a
line that begins with a key or a dash, not further to the right than what the node belongs to
(`Continues`).  Whatever a reader leaves of the lines of its node, skipping leads to the first
character of that line (`State.onLine`), so `Reads` says of a reader which node it comes to and what
the text goes on with.
-/

namespace NetLab.Yaml

/-! ## Characters -/

/-- A test tells two characters apart. -/
theorem ne_of_test {test : Char → Bool} {c d : Char} (h : test c = true) (hd : test d = false) :
    c ≠ d := by
  rintro rfl
  rw [h] at hd
  cases hd

theorem isSpace_of_isPrintable {c : Char} (h : isPrintable c = true) :
    isSpace c = decide (c = ' ') := by
  simp [isSpace, ne_of_test h (show isPrintable '\t' = false by decide)]

/-- A token may begin with the character: it is no blank, no break, and begins no comment. -/
def beginsToken (c : Char) : Bool := !isBreak c && !isSpace c && c != '#' && c != '\ufeff'

theorem beginsToken_of_isNameChar {c : Char} (h : isNameChar c = true) : beginsToken c = true := by
  simp only [beginsToken, isBreak, isSpace, Bool.and_eq_true, Bool.not_eq_true',
    Bool.or_eq_false_iff,
    decide_eq_false_iff_not, bne_iff_ne]
  and_intros <;> exact ne_of_test h (by decide)

theorem isBreak_of_beginsToken {c : Char} (h : beginsToken c = true) : isBreak c = false := by
  simp only [beginsToken, Bool.and_eq_true, Bool.not_eq_true'] at h
  exact h.1.1.1

theorem isSpace_of_beginsToken {c : Char} (h : beginsToken c = true) : isSpace c = false := by
  simp only [beginsToken, Bool.and_eq_true, Bool.not_eq_true'] at h
  exact h.1.1.2

/-! ## Steps -/

namespace Place

theorem next_of_break {c : Char} (h : isBreak c = true) (text : List Char) (column line : Nat) :
    next ⟨c :: text, column, line⟩ = ⟨text, 0, line + 1⟩ := by
  simp [next, h]

theorem next_of_not_break {c : Char} (h : isBreak c = false) (text : List Char)
    (column line : Nat) : next ⟨c :: text, column, line⟩ = ⟨text, column + 1, line⟩ := by
  simp [next, h]

theorem rest_next (s : Place) : s.next.rest = s.rest.tail := by
  rw [next]
  split
  · rename_i hrest
    rw [hrest]
    rfl
  · rename_i hrest
    rw [hrest]
    split <;> rfl

theorem ahead_append (word text : List Char) (column line : Nat) :
    ahead word.length ⟨word ++ text, column, line⟩ = ⟨text, column + word.length, line⟩ := by
  simp [ahead]

theorem afterWhile_of_pos {test : Char → Bool} {c : Char} (h : test c = true) (text : List Char)
    (column line : Nat) :
    afterWhile test ⟨c :: text, column, line⟩ = afterWhile test ⟨text, column + 1, line⟩ := by
  simp only [afterWhile, ahead, List.takeWhile_cons_of_pos h, List.length_cons, List.drop_succ_cons,
    Place.mk.injEq, true_and, and_true]
  omega

theorem afterWhile_of_neg {test : Char → Bool} {text : List Char}
    (h : ∀ c ∈ text.head?, test c = false) (column line : Nat) :
    afterWhile test ⟨text, column, line⟩ = ⟨text, column, line⟩ := by
  cases text with
  | nil => rfl
  | cons c rest =>
    have hc : ¬test c = true := by simpa using h c rfl
    simp [afterWhile, ahead, List.takeWhile_cons_of_neg hc]

/-- The place at the first character of a line that is no space. -/
def onLine (line : Nat) (text : List Char) : Place := afterWhile (· = ' ') ⟨text, 0, line⟩

theorem afterWhile_indentation (count : Nat) {text : List Char} (h : text.head? ≠ some ' ')
    (column line : Nat) :
    afterWhile (· = ' ') ⟨List.replicate count ' ' ++ text, column, line⟩ =
      ⟨text, column + count, line⟩ := by
  induction count generalizing column with
  | zero =>
    refine afterWhile_of_neg (fun c hc => decide_eq_false ?_) column line
    rintro rfl
    exact h hc
  | succ count ih =>
    rw [List.replicate_succ, List.cons_append, afterWhile_of_pos (by simp), ih]
    simp only [Place.mk.injEq, true_and, and_true]
    omega

theorem exists_indentation (text : List Char) :
    ∃ count tail, text = List.replicate count ' ' ++ tail ∧ tail.head? ≠ some ' ' := by
  induction text with
  | nil => exact ⟨0, [], rfl, by simp⟩
  | cons c text ih =>
    by_cases hc : c = ' '
    · obtain ⟨count, tail, rfl, htail⟩ := ih
      exact ⟨count + 1, tail, by rw [hc]; rfl, htail⟩
    · exact ⟨0, c :: text, rfl, by simpa using hc⟩

theorem atMark_of_pos {s : Place} (h : 0 < s.column) (mark : Char) : s.atMark mark = false := by
  have hne : s.column ≠ 0 := by omega
  simp [atMark, hne]

theorem atMark_of_ne {c mark : Char} (h : c ≠ mark) (text : List Char) (column line : Nat) :
    atMark mark ⟨c :: text, column, line⟩ = false := by
  rcases text with _ | ⟨b, _ | ⟨a, text⟩⟩ <;> simp [atMark, h]

theorem atEnd_of_isAlpha {c : Char} (h : c.isAlpha = true) (text : List Char) (column line : Nat) :
    atEnd ⟨c :: text, column, line⟩ = false := by
  have hdash : c ≠ '-' := ne_of_test h (by decide)
  have hdot : c ≠ '.' := ne_of_test h (by decide)
  simp [atEnd, atMark_of_ne hdash, atMark_of_ne hdot]

theorem atEnd_of_dash (text : List Char) (column line : Nat) :
    atEnd ⟨'-' :: ' ' :: text, column, line⟩ = false := by
  cases text <;> simp [atEnd, atMark]

end Place

/-! ## What follows a node -/

/-- The text is over, or goes on with a line whose first character belongs to a key or a dash and
stands at most at the column `limit`. -/
structure Continues (limit : Nat) (text : List Char) : Prop where
  column_le : (Place.onLine 0 text).column ≤ limit
  begins : ∀ c ∈ (Place.onLine 0 text).rest.head?, isNameChar c = true

namespace Continues

theorem nil (limit : Nat) : Continues limit [] :=
  ⟨Nat.zero_le limit, by simp [Place.onLine, Place.afterWhile, Place.ahead]⟩

theorem mono {limit wider : Nat} {text : List Char} (h : Continues limit text)
    (hle : limit ≤ wider) : Continues wider text := ⟨Nat.le_trans h.column_le hle, h.begins⟩

theorem line {limit column : Nat} {c : Char} (hle : column ≤ limit) (hc : isNameChar c = true)
    (text : List Char) : Continues limit (List.replicate column ' ' ++ c :: text) := by
  have hspace : c ≠ ' ' := ne_of_test hc (by decide)
  have hplace := @Place.afterWhile_indentation column (c :: text) (by simpa using hspace) 0 0
  constructor
  · rw [Place.onLine, hplace]
    simpa using hle
  · rw [Place.onLine, hplace]
    simpa using hc

/-- The line is its indentation and what comes after it. -/
theorem exists_eq {limit : Nat} {text : List Char} (h : Continues limit text) :
    ∃ count tail, text = List.replicate count ' ' ++ tail ∧ count ≤ limit ∧
      (∀ c ∈ tail.head?, isNameChar c = true) ∧
      ∀ line, Place.onLine line text = ⟨tail, count, line⟩ := by
  obtain ⟨count, tail, rfl, htail⟩ := Place.exists_indentation text
  have hline : ∀ line,
      Place.onLine line (List.replicate count ' ' ++ tail) = ⟨tail, count, line⟩ := by
    intro line
    rw [Place.onLine, Place.afterWhile_indentation count htail, Nat.zero_add]
  obtain ⟨hcolumn, hbegins⟩ := h
  rw [hline] at hcolumn hbegins
  exact ⟨count, tail, rfl, hcolumn, hbegins, hline⟩

end Continues

/-! ## Skipping -/

namespace State

/-- The state at the first character of a line that is no space. -/
def onLine (line : Nat) (text : List Char) (anchors : List Anchor) : State :=
  ⟨.onLine line text, true, anchors⟩

theorem skip_of_beginsToken {s : State} (h : ∀ c ∈ s.rest.head?, beginsToken c = true)
    (flow : Bool) : s.skip flow = s := by
  obtain ⟨⟨text, column, line⟩, fresh, anchors⟩ := s
  cases text with
  | nil => rfl
  | cons c rest =>
    have hc := h c rfl
    simp only [beginsToken, Bool.and_eq_true, Bool.not_eq_true', bne_iff_ne, isSpace,
      Bool.or_eq_false_iff, decide_eq_false_iff_not] at hc
    simp [skip, skipFrom, move, hc]

theorem skip_space (flow : Bool) (text : List Char) (column line : Nat) (fresh : Bool)
    (anchors : List Anchor) :
    skip flow ⟨⟨' ' :: text, column, line⟩, fresh, anchors⟩ =
      skip flow ⟨⟨text, column + 1, line⟩, fresh, anchors⟩ := rfl

theorem skip_spaces (flow : Bool) (text : List Char) (column line : Nat) (fresh : Bool)
    (anchors : List Anchor) :
    skip flow ⟨⟨text, column, line⟩, fresh, anchors⟩ =
      skip flow ⟨.afterWhile (· = ' ') ⟨text, column, line⟩, fresh, anchors⟩ := by
  induction text generalizing column with
  | nil => rfl
  | cons c rest ih =>
    by_cases hc : c = ' '
    · subst hc
      rw [skip_space, ih, Place.afterWhile_of_pos (by simp)]
    · rw [Place.afterWhile_of_neg (by simpa using hc)]

theorem size_skip_le (flow : Bool) (s : State) : (s.skip flow).size ≤ s.size := by
  suffices h : ∀ comment fresh text (place : Place), place.rest = text →
      (skipFrom flow comment fresh text place).1.rest.length ≤ text.length from
    h false s.fresh s.place.rest s.place rfl
  intro comment fresh text
  induction text generalizing comment fresh with
  | nil =>
    intro place hrest
    simp [skipFrom, hrest]
  | cons c text ih =>
    intro place hrest
    have hlater : ∀ comment fresh,
        (skipFrom flow comment fresh text place.next).1.rest.length ≤ text.length + 1 := by
      intro comment fresh
      have hle := ih comment fresh place.next (by rw [Place.rest_next, hrest, List.tail_cons])
      omega
    rw [skipFrom]
    repeat' split
    all_goals first
      | exact hlater _ _
      | simp [hrest]

theorem skip_onLine {limit : Nat} {text : List Char} (h : Continues limit text) (line : Nat)
    (anchors : List Anchor) : (onLine line text anchors).skip false = onLine line text anchors := by
  apply skip_of_beginsToken
  intro c hc
  exact beginsToken_of_isNameChar (h.begins c hc)

theorem skip_line {limit : Nat} {text : List Char} (h : Continues limit text)
    (column line : Nat) (fresh : Bool) (anchors : List Anchor) :
    skip false ⟨⟨'\n' :: text, column, line⟩, fresh, anchors⟩ = onLine (line + 1) text anchors := by
  have hbreak : skip false ⟨⟨'\n' :: text, column, line⟩, fresh, anchors⟩ =
      skip false ⟨⟨text, 0, line + 1⟩, true, anchors⟩ := by
    simp [skip, skipFrom, isBreak, Place.next, move]
  rw [hbreak, skip_spaces]
  exact skip_onLine h (line + 1) anchors

end State

/-- The reading comes to the node, and the text goes on with `text`, at the beginning of a line. -/
def Reads (reading? : Option Reading) (node : Node) (text : List Char) (anchors : List Anchor) :
    Prop :=
  ∃ after line, reading? = some (node, after) ∧ after.skip false = .onLine line text anchors

/-! ## Gaps -/

namespace Gap

/-- Unless the first of them is a line feed, breaks stand for themselves. -/
theorem text_of_ne_feed {c : Char} (h : c ≠ '\n') (spaces breaks : List Char) :
    text ⟨spaces, c :: breaks⟩ = c :: breaks := by
  simp only [text]
  split <;> simp_all

theorem scan_break {c : Char} (h : isBreak c = true) (least : Nat) (read : Gap) (text : List Char)
    (column line : Nat) :
    scan least read (c :: text) ⟨c :: text, column, line⟩ =
      scan least ⟨[], read.breaks ++ [c]⟩ text ⟨text, 0, line + 1⟩ := by
  rw [scan, Place.next_of_break h]
  simp [h]

theorem scan_end {text : List Char} (h : ∀ c ∈ text.head?, isSpace c = false ∧ isBreak c = false)
    (least : Nat) (read : Gap) (s : Place) : scan least read text s = some (read, s) := by
  cases text with
  | nil => rfl
  | cons c rest => simp [scan, h c rfl]

/-- Spaces in a line belong to the gap. -/
theorem scan_spaces (count : Nat) {c : Char} (hc : isSpace c = false ∧ isBreak c = false)
    (least : Nat) (spaces text : List Char) (column line : Nat) :
    scan least ⟨spaces, []⟩ (List.replicate count ' ' ++ c :: text)
        ⟨List.replicate count ' ' ++ c :: text, column, line⟩ =
      some (⟨spaces ++ List.replicate count ' ', []⟩, ⟨c :: text, column + count, line⟩) := by
  induction count generalizing spaces column with
  | zero => simpa using scan_end (by simpa using hc) least ⟨spaces, []⟩ ⟨c :: text, column, line⟩
  | succ count ih =>
    rw [List.replicate_succ, List.cons_append, scan, Place.next_of_not_break (by decide)]
    simp only [show isBreak ' ' = false by decide, show isSpace ' ' = true by decide,
      Bool.false_eq_true, if_false, if_true, List.isEmpty_nil]
    rw [ih]
    simp only [List.append_assoc, List.singleton_append, Option.some.injEq, Prod.mk.injEq, true_and,
      Place.mk.injEq, and_true]
    omega

/-- Spaces at the beginning of a line do not. -/
theorem scan_indentation (least : Nat) {read : Gap} (hread : read.breaks ≠ []) (text : List Char)
    (h : ∀ c ∈ (Place.onLine 0 text).rest.head?, isSpace c = false ∧ isBreak c = false)
    (column line : Nat) :
    scan least read text ⟨text, column, line⟩ =
      some (read, .afterWhile (· = ' ') ⟨text, column, line⟩) := by
  induction text generalizing column with
  | nil => rfl
  | cons c rest ih =>
    by_cases hc : c = ' '
    · subst hc
      have hrest : Place.onLine 0 (' ' :: rest) = .afterWhile (· = ' ') ⟨rest, 1, 0⟩ :=
        Place.afterWhile_of_pos (by simp) rest 0 0
      rw [hrest] at h
      rw [scan, Place.next_of_not_break (by decide), Place.afterWhile_of_pos (by simp),
        ← ih h (column + 1)]
      simp [show isBreak ' ' = false by decide, show isSpace ' ' = true by decide, hread]
    · have hline : Place.onLine 0 (c :: rest) = ⟨c :: rest, 0, 0⟩ :=
        Place.afterWhile_of_neg (by simpa using hc) 0 0
      rw [hline] at h
      rw [scan_end h, Place.afterWhile_of_neg (by simpa using hc)]

/-- A gap that reaches to the next node. -/
theorem scan_line {limit : Nat} {text : List Char} (h : Continues limit text) (least : Nat)
    (read : Gap) (column line : Nat) :
    scan least read ('\n' :: text) ⟨'\n' :: text, column, line⟩ =
      some (⟨[], read.breaks ++ ['\n']⟩, .onLine (line + 1) text) := by
  rw [scan_break (by decide)]
  refine scan_indentation least (by simp) text (fun c hc => ?_) 0 (line + 1)
  have htoken := beginsToken_of_isNameChar (h.begins c hc)
  exact ⟨isSpace_of_beginsToken htoken, isBreak_of_beginsToken htoken⟩

end Gap

end NetLab.Yaml
