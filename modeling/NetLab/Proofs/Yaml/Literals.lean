import Mathlib.Data.List.Basic
import NetLab.Proofs.Yaml.Places
import NetLab.Yaml.Writer

/-!
# Literal blocks are read back

In a literal block every line of the text stands at one column, and empty lines are nothing but
their breaks.  The reader takes the lines one after the other (`scanLines_lines`); what it has read
so far is always a prefix of the text, followed by the breaks that it has not yet decided about.
The head of the block says what becomes of them: the sign that the writer puts there leaves exactly
the breaks that the text ends with (`chomp_eq`).
-/

namespace NetLab.Yaml

/-! ## Lines -/

/-- The text begins with a line that is not empty and ends with a break. -/
inductive Lines : List Char → Prop where
  | last {line empty : List Char} {last : Char} (hne : line ≠ [])
      (hline : ∀ c ∈ line, isBreak c = false) (hlast : isBreak last = true)
      (hempty : ∀ c ∈ empty, isBreak c = true) : Lines (line ++ last :: empty)
  | more {line empty text : List Char} {last : Char} (hne : line ≠ [])
      (hline : ∀ c ∈ line, isBreak c = false) (hlast : isBreak last = true)
      (hempty : ∀ c ∈ empty, isBreak c = true) (h : Lines text) :
      Lines (line ++ last :: (empty ++ text))

namespace Lines

theorem cons {c : Char} (hc : isBreak c = false) {text : List Char} (h : Lines text) :
    Lines (c :: text) := by
  cases h with
  | @last line empty last hne hline hlast hempty =>
    exact @Lines.last (c :: line) empty last (by simp) (by simpa [hc] using hline) hlast hempty
  | @more line empty text last hne hline hlast hempty h =>
    exact @Lines.more (c :: line) empty text last (by simp) (by simpa [hc] using hline) hlast hempty
      h

/-- Every text that ends with a break is empty lines, and then lines or nothing. -/
theorem exists_of_getLast? {text : List Char} (hlast : ∀ c ∈ text.getLast?, isBreak c = true) :
    ∃ empty lines, text = empty ++ lines ∧ (∀ c ∈ empty, isBreak c = true) ∧
      (lines = [] ∨ Lines lines) := by
  induction text with
  | nil => exact ⟨[], [], rfl, by simp, Or.inl rfl⟩
  | cons c rest ih =>
    by_cases hrest : rest = []
    · subst hrest
      exact ⟨[c], [], rfl, by simpa using hlast, Or.inl rfl⟩
    · rw [List.getLast?_cons_of_ne_nil hrest] at hlast
      obtain ⟨empty, lines, rfl, hempty, hlines⟩ := ih hlast
      by_cases hc : isBreak c = true
      · exact ⟨c :: empty, lines, rfl, by simpa [hc] using hempty, hlines⟩
      · have hc : isBreak c = false := by simpa using hc
        refine ⟨[], _, rfl, by simp, Or.inr ?_⟩
        cases empty with
        | nil => exact (hlines.resolve_left hrest).cons hc
        | cons last empty =>
          have hall : isBreak last = true ∧ ∀ d ∈ empty, isBreak d = true := by simpa using hempty
          rcases hlines with rfl | hlines
          · rw [List.append_nil]
            exact @Lines.last [c] empty last (by simp) (by simpa using hc) hall.1 hall.2
          · exact @Lines.more [c] empty lines last (by simp) (by simpa using hc) hall.1 hall.2
              hlines

theorem exists_cons {text : List Char} (h : Lines text) :
    ∃ c rest, text = c :: rest ∧ isBreak c = false := by
  cases h with
  | last hne hline =>
    obtain ⟨c, rest, rfl⟩ := List.exists_cons_of_ne_nil hne
    exact ⟨c, _, rfl, hline c (by simp)⟩
  | more hne hline =>
    obtain ⟨c, rest, rfl⟩ := List.exists_cons_of_ne_nil hne
    exact ⟨c, _, rfl, hline c (by simp)⟩

end Lines

/-! ## How lines are written -/

section Indented

variable {indent : Nat} {text : List Char}

theorem indented_line {line : List Char} (hline : ∀ c ∈ line, isBreak c = false) :
    indented indent false (line ++ text) = line ++ indented indent false text := by
  induction line with
  | nil => rfl
  | cons c line ih =>
    have hc := hline c (by simp)
    rw [List.cons_append, indented, ih fun d hd => hline d (by simp [hd])]
    simp [hc]

theorem indented_break {c : Char} (hc : isBreak c = true) (fresh : Bool) :
    indented indent fresh (c :: text) = c :: indented indent true text := by
  simp [indented, hc]

theorem indented_empty {empty : List Char} (hempty : ∀ c ∈ empty, isBreak c = true) :
    indented indent true (empty ++ text) = empty ++ indented indent true text := by
  induction empty with
  | nil => rfl
  | cons c empty ih =>
    rw [List.cons_append, indented_break (hempty c (by simp)),
      ih fun d hd => hempty d (by simp [hd])]
    rfl

theorem indented_fresh (h : Lines text) :
    indented indent true text = indentation indent ++ indented indent false text := by
  obtain ⟨c, rest, rfl, hc⟩ := h.exists_cons
  simp [indented, hc]

end Indented

/-! ## Empty lines -/

section Blanks

variable {indent limit : Nat} {rest : List Char}

theorem scanBlanks_empty {empty : List Char} (hempty : ∀ c ∈ empty, isBreak c = true)
    (indent? : Option Nat) (breaks text : List Char) (widest line : Nat) :
    ∃ last, scanBlanks indent? breaks widest (empty ++ text) ⟨empty ++ text, 0, line⟩ =
      scanBlanks indent? (breaks ++ empty) widest text ⟨text, 0, last⟩ := by
  induction empty generalizing breaks line with
  | nil => exact ⟨line, by simp⟩
  | cons c empty ih =>
    obtain ⟨last, heq⟩ := ih (fun d hd => hempty d (by simp [hd])) (breaks ++ [c]) (line + 1)
    refine ⟨last, ?_⟩
    have hc := hempty c (by simp)
    have hspace : c ≠ ' ' := ne_of_test hc (by decide)
    have htab : c ≠ '\t' := ne_of_test hc (by decide)
    rw [List.cons_append, scanBlanks.eq_def]
    simp only [Place.next_of_break hc, hspace, htab, hc, decide_false, Bool.false_and,
      Bool.false_eq_true, if_false, if_true, Nat.max_zero]
    rw [heq, List.append_assoc, List.singleton_append]

theorem scanBlanks_spaces (indent? : Option Nat) {column count : Nat}
    (hindent : ∀ indent ∈ indent?, column + count ≤ indent) (breaks text : List Char)
    (widest line : Nat) :
    scanBlanks indent? breaks widest (List.replicate count ' ' ++ text)
        ⟨List.replicate count ' ' ++ text, column, line⟩ =
      scanBlanks indent? breaks widest text ⟨text, column + count, line⟩ := by
  induction count generalizing column with
  | zero => rfl
  | succ count ih =>
    have hnext : ∀ indent ∈ indent?, column + 1 + count ≤ indent := by
      intro indent hmem
      have hle := hindent indent hmem
      omega
    rw [List.replicate_succ, List.cons_append, scanBlanks.eq_def]
    simp only [Place.next_of_not_break (show isBreak ' ' = false by decide)]
    rw [ih hnext, Nat.add_right_comm]
    cases indent? with
    | none => simp [Nat.add_assoc]
    | some indent =>
      have hlt : column < indent := by
        have hle := hindent indent rfl
        omega
      simp [hlt, Nat.add_assoc]

/-- The first line that is not empty. -/
theorem scanBlanks_stop (indent? : Option Nat) {column : Nat} {text : List Char}
    (h : ∀ c ∈ text.head?, isBreak c = false ∧ c ≠ '\t' ∧
      (c = ' ' → ∃ indent, indent? = some indent ∧ indent ≤ column))
    (breaks : List Char) (widest line : Nat) :
    scanBlanks indent? breaks widest text ⟨text, column, line⟩ =
      some ⟨breaks, max widest column, ⟨text, column, line⟩⟩ := by
  cases text with
  | nil => rfl
  | cons c text =>
    obtain ⟨hbreak, htab, hspace⟩ := h c rfl
    rw [scanBlanks.eq_def]
    by_cases hc : c = ' '
    · obtain ⟨indent, rfl, hle⟩ := hspace hc
      have hlt : ¬column < indent := by omega
      simp [hbreak, htab, hlt]
    · simp [hbreak, htab, hc]

theorem length_scanBlanks {indent? : Option Nat} {breaks text : List Char} {widest : Nat}
    {s : Place} {blanks : Blanks} (h : scanBlanks indent? breaks widest text s = some blanks)
    (hs : s.rest = text) : blanks.place.rest.length ≤ text.length := by
  induction text generalizing breaks widest s with
  | nil =>
    obtain rfl := Option.some.inj h
    simp [hs]
  | cons c text ih =>
    have hnext : s.next.rest = text := by rw [Place.rest_next, hs, List.tail_cons]
    have hlater : ∀ {breaks widest}, scanBlanks indent? breaks widest text s.next = some blanks →
        blanks.place.rest.length ≤ text.length + 1 :=
      fun h => Nat.le_succ_of_le (ih h hnext)
    rw [scanBlanks.eq_def] at h
    cases indent? <;> simp only at h
    all_goals
      split at h
      · exact hlater h
      · split at h
        · cases h
        · split at h
          · exact hlater h
          · obtain rfl := Option.some.inj h
            simp [hs]

/-- The indentation of the first line that is not empty. -/
theorem scanBlanks_lines {text : List Char} (h : Lines text)
    (hprint : ∀ c ∈ text, isPrintable c = true) {indent? : Option Nat}
    (hindent : ∀ column ∈ indent?, column = indent)
    (hspace : indent? = none → text.head? ≠ some ' ') (breaks : List Char) (widest line : Nat) :
    scanBlanks indent? breaks widest (indented indent true text ++ rest)
        ⟨indented indent true text ++ rest, 0, line⟩ =
      some ⟨breaks, max widest indent, ⟨indented indent false text ++ rest, indent, line⟩⟩ := by
  rw [indented_fresh h, List.append_assoc, indentation, scanBlanks_spaces indent?, Nat.zero_add]
  · refine scanBlanks_stop indent? (fun d hd => ?_) breaks widest line
    obtain ⟨c, tail, rfl, hbreak⟩ := h.exists_cons
    obtain rfl : c = d := by simpa [indented, hbreak] using hd
    refine ⟨hbreak, ne_of_test (hprint c (by simp)) (by decide), fun hc => ?_⟩
    cases indent? with
    | none => exact absurd (by simp [hc]) (hspace rfl)
    | some column => exact ⟨column, rfl, Nat.le_of_eq (hindent column rfl)⟩
  · intro column hcolumn
    rw [hindent column hcolumn]
    omega

/-- The line that follows the block stands further to the left. -/
theorem scanBlanks_end (h : Continues limit rest) (hlimit : limit < indent) (breaks : List Char)
    (widest line : Nat) :
    ∃ widest', scanBlanks (some indent) breaks widest rest ⟨rest, 0, line⟩ =
      some ⟨breaks, widest', .onLine line rest⟩ := by
  obtain ⟨count, tail, rfl, hcount, hbegins, hline⟩ := h.exists_eq
  refine ⟨max widest count, ?_⟩
  rw [hline, scanBlanks_spaces (some indent) (by simp; omega), Nat.zero_add]
  refine scanBlanks_stop (some indent) (fun c hc => ?_) breaks widest line
  have hname := hbegins c hc
  exact ⟨isBreak_of_beginsToken (beginsToken_of_isNameChar hname), ne_of_test hname (by decide),
    fun hspace => absurd hspace (ne_of_test hname (by decide))⟩

end Blanks

/-! ## The lines of a block -/

/-- The lines are a whole text: at least one break is left to be decided about. -/
structure BlockLines.Hold (lines : BlockLines) (whole : List Char) : Prop where
  whole_eq : lines.text ++ lines.lastBreak ++ lines.empty = whole
  lastBreak : lines.lastBreak.length = 1
  empty : ∀ c ∈ lines.lastBreak ++ lines.empty, isBreak c = true

section Scan

variable {indent limit : Nat} {rest : List Char}

/-- A step over one line and the empty lines after it. -/
theorem scanLines_step {lines : BlockLines} {line text : List Char} {last : Char} {number : Nat}
    (hplace : lines.place = ⟨line ++ last :: text, indent, number⟩) (hne : line ≠ [])
    (hline : ∀ c ∈ line, isBreak c = false) (hlast : isBreak last = true) {blanks : Blanks}
    (hblanks : scanBlanks (some indent) [] 0 text ⟨text, 0, number + 1⟩ = some blanks) :
    ∃ blank, scanLines false indent lines =
      scanLines false indent ⟨lines.text ++ lines.lastBreak ++ lines.empty ++ line, [last], blank,
        blanks.breaks, blanks.place⟩ := by
  obtain ⟨c, more, rfl⟩ := List.exists_cons_of_ne_nil hne
  have htake : (c :: more ++ last :: text).takeWhile (fun c => !isBreak c) = c :: more := by
    rw [List.takeWhile_append_of_pos (by simpa using hline),
      List.takeWhile_cons_of_neg (by simp [hlast]),
      List.append_nil]
  refine ⟨isSpace c, ?_⟩
  rw [scanLines]
  simp only [hplace, htake, Place.ahead_append, Place.next_of_break hlast, List.take_succ_cons]
  have hshorter : blanks.place.rest.length < more.length + (text.length + 1) + 1 := by
    have hle := length_scanBlanks hblanks rfl
    omega
  simp [hblanks, hshorter]

/-- The block ends where a line stands further to the left. -/
theorem scanLines_end {lines : BlockLines} {line : Nat} (h : Continues limit rest)
    (hlimit : limit < indent) (hplace : lines.place = .onLine line rest) :
    scanLines false indent lines = some lines := by
  have hcolumn : lines.place.column ≠ indent := by
    have hle : lines.place.column ≤ limit := by
      rw [hplace]
      exact h.column_le
    omega
  rw [scanLines]
  split <;> simp [hcolumn]

/-- **Lines are read to the end of the block**, and nothing of them is lost. -/
theorem scanLines_lines {text : List Char} (htext : Lines text)
    (hprint : ∀ c ∈ text, isPrintable c = true) (hrest : Continues limit rest)
    (hlimit : limit < indent) {lines : BlockLines} {line : Nat}
    (hplace : lines.place = ⟨indented indent false text ++ rest, indent, line⟩) :
    ∃ read last, scanLines false indent lines = some read ∧ read.place = .onLine last rest ∧
      read.Hold (lines.text ++ lines.lastBreak ++ lines.empty ++ text) := by
  induction htext generalizing lines line with
  | @last content empty last hne hline hlast hempty =>
    rw [indented_line hline, indented_break hlast, ← List.append_nil empty, indented_empty hempty,
      indented, List.append_nil, List.append_assoc, List.cons_append] at hplace
    obtain ⟨line', hblanks⟩ := scanBlanks_empty hempty (some indent) [] rest 0 (line + 1)
    obtain ⟨widest', hend⟩ := scanBlanks_end hrest hlimit empty 0 line'
    rw [List.nil_append, hend] at hblanks
    obtain ⟨blank, hstep⟩ := scanLines_step hplace hne hline hlast hblanks
    refine ⟨_, line', hstep.trans (scanLines_end hrest hlimit rfl), rfl, ?_, rfl, ?_⟩
    · simp
    · simpa [hlast] using hempty
  | @more content empty text last hne hline hlast hempty htext ih =>
    rw [indented_line hline, indented_break hlast, indented_empty hempty, List.append_assoc,
      List.cons_append, List.append_assoc] at hplace
    have hlater : ∀ c ∈ text, isPrintable c = true := fun c hc => hprint c (by simp [hc])
    obtain ⟨line', hblanks⟩ := scanBlanks_empty hempty (some indent) []
      (indented indent true text ++ rest) 0 (line + 1)
    rw [List.nil_append, scanBlanks_lines htext hlater (by simp) (by simp)] at hblanks
    obtain ⟨blank, hstep⟩ := scanLines_step hplace hne hline hlast hblanks
    rw [hstep]
    obtain ⟨read, last', hread, hend, hhold⟩ := @ih hlater
      ⟨_, _, blank, empty, ⟨indented indent false text ++ rest, indent, line'⟩⟩ line' rfl
    refine ⟨read, last', hread, hend, ?_⟩
    simpa using hhold

end Scan

/-! ## The head of a block -/

/-- What the sign in the head of a block says. -/
def Chomping.ofHint : List Char → Chomping
  | ['-'] => .strip
  | ['+'] => .keep
  | _ => .clip

/-- What is left of the lines of a block. -/
def BlockLines.chomp (lines : BlockLines) : Chomping → List Char
  | .strip => lines.text
  | .clip => lines.text ++ lines.lastBreak
  | .keep => lines.text ++ lines.lastBreak ++ lines.empty

theorem chompHint_mem (text : List Char) : chompHint text ∈ [['-'], ['+'], []] := by
  unfold chompHint
  split
  · split
    · simp
    · split <;> simp
  · split <;> simp
  · simp

theorem indentHint_mem (text : List Char) : indentHint text ∈ [['2'], []] := by
  unfold indentHint
  split
  · split <;> simp
  · simp

theorem ofText?_hints (text body : List Char) :
    BlockHead.ofText? (indentHint text ++ chompHint text ++ '\n' :: body) =
      some (⟨.ofHint (chompHint text), if (indentHint text).isEmpty then none else some 2⟩,
        '\n' :: body) := by
  have hchomp := chompHint_mem text
  have hindent := indentHint_mem text
  simp only [List.mem_cons, List.not_mem_nil, or_false] at hchomp hindent
  rcases hindent with hindent | hindent <;> rcases hchomp with hchomp | hchomp | hchomp <;>
    rw [hindent, hchomp] <;> rfl

theorem chompHint_concat (init : List Char) (last : Char) :
    chompHint (init ++ [last]) =
      if isBreak last then
        if (init.getLast?.map isBreak).getD true then ['+'] else []
      else ['-'] := by
  rcases List.eq_nil_or_concat' init with rfl | ⟨init, before, rfl⟩ <;>
    cases hlast : isBreak last <;> simp [chompHint, hlast]

theorem endLine_concat (init : List Char) (last : Char) :
    endLine (init ++ [last]) =
      if isBreak last then init ++ [last] else init ++ [last] ++ ['\n'] := by
  simp [endLine]

/-- Breaks after which a text ends in something else than a break are only one. -/
theorem eq_of_append_breaks {text breaks init : List Char} {last b : Char}
    (h : text ++ breaks = init ++ [last] ++ [b]) (hlast : isBreak last = false)
    (hne : breaks ≠ []) (hbreaks : ∀ c ∈ breaks, isBreak c = true) :
    text = init ++ [last] ∧ breaks = [b] := by
  obtain ⟨before, c, rfl⟩ := (List.eq_nil_or_concat' breaks).resolve_left hne
  rw [← List.append_assoc] at h
  obtain ⟨hinit, rfl⟩ := List.append_singleton_inj.mp h
  rcases List.eq_nil_or_concat' before with rfl | ⟨before, d, rfl⟩
  · exact ⟨by simpa using hinit, rfl⟩
  · rw [← List.append_assoc] at hinit
    obtain ⟨-, rfl⟩ := List.append_singleton_inj.mp hinit
    have hd := hbreaks d (by simp)
    rw [hlast] at hd
    cases hd

/-- **The sign leaves the breaks that the text ends with**, and no others. -/
theorem chomp_eq {text : List Char} (hne : text ≠ []) {lines : BlockLines}
    (h : lines.Hold (endLine text)) : lines.chomp (.ofHint (chompHint text)) = text := by
  obtain ⟨init, last, rfl⟩ := (List.eq_nil_or_concat' text).resolve_left hne
  obtain ⟨hwhole, hlength, hbreaks⟩ := h
  have hsome : lines.lastBreak ++ lines.empty ≠ [] := by
    intro hnil
    rw [(List.append_eq_nil_iff.mp hnil).1] at hlength
    cases hlength
  rw [List.append_assoc, endLine_concat] at hwhole
  rw [chompHint_concat]
  cases hlast : isBreak last with
  | false =>
    simp only [hlast, Bool.false_eq_true, if_false] at hwhole ⊢
    exact (eq_of_append_breaks hwhole hlast hsome hbreaks).1
  | true =>
    simp only [hlast, if_true] at hwhole ⊢
    rcases List.eq_nil_or_concat' init with rfl | ⟨init, before, rfl⟩
    · simpa [Chomping.ofHint, BlockLines.chomp] using hwhole
    · cases hbefore : isBreak before with
      | false =>
        obtain ⟨htext, hone⟩ := eq_of_append_breaks hwhole hbefore hsome hbreaks
        obtain ⟨b, hb⟩ := List.length_eq_one_iff.mp hlength
        rw [hb, List.singleton_append, List.cons.injEq] at hone
        simp [Chomping.ofHint, BlockLines.chomp, hbefore, htext, hb, hone.1]
      | true => simpa [Chomping.ofHint, BlockLines.chomp, hbefore] using hwhole

/-! ## Blocks -/

theorem chompHint_of_breaks {text : List Char} (hne : text ≠ [])
    (hbreaks : ∀ c ∈ text, isBreak c = true) : chompHint text = ['+'] := by
  obtain ⟨init, last, rfl⟩ := (List.eq_nil_or_concat' text).resolve_left hne
  have hlast : isBreak last = true := hbreaks last (by simp)
  have hinit : (init.getLast?.map isBreak).getD true = true := by
    cases h : init.getLast? with
    | none => rfl
    | some c => exact hbreaks c (by simp [List.mem_of_getLast? h])
  rw [chompHint_concat, hlast, hinit]
  rfl

/-- The column that the head of a block gives, where it gives one. -/
def givenIndent (least : Nat) (text : List Char) : Option Nat :=
  if (indentHint text).isEmpty then none else some (least - 1 + 2)

/-- A block is its head, its first empty lines and its lines. -/
theorem scanBlock_of_lines {text body : List Char} {least line : Nat} {blanks : Blanks}
    (hblanks : scanBlanks (givenIndent least text) [] 0 body ⟨body, 0, line + 1⟩ = some blanks)
    {lines : BlockLines}
    (hlines : scanLines false ((givenIndent least text).getD (max (max blanks.widest least) 1))
      ⟨[], [], false, blanks.breaks, blanks.place⟩ = some lines) (column : Nat) :
    scanBlock false least ⟨indentHint text ++ chompHint text ++ '\n' :: body, column, line⟩ =
      some (lines.chomp (.ofHint (chompHint text)), lines.place) := by
  have hahead : Place.ahead ((indentHint text ++ chompHint text ++ '\n' :: body).length -
      ('\n' :: body).length) ⟨indentHint text ++ chompHint text ++ '\n' :: body, column, line⟩ =
      ⟨'\n' :: body, column + (indentHint text ++ chompHint text).length, line⟩ := by
    rw [List.length_append, Nat.add_sub_cancel, Place.ahead_append]
  have hblank : ∀ c ∈ ('\n' :: body).head?, isSpace c = false := by simp [isSpace]
  have hgiven : (if (indentHint text).isEmpty then none else some 2).map (least - 1 + ·) =
      givenIndent least text := by
    unfold givenIndent
    split <;> rfl
  rw [scanBlock]
  simp only [ofText?_hints, hahead, Place.afterWhile_of_neg hblank, List.head?_cons,
    Option.some.injEq, show ¬('\n' = '#') by decide, if_false,
    Place.next_of_break (show isBreak '\n' = true by decide), hgiven, hblanks, hlines]
  cases Chomping.ofHint (chompHint text) <;> rfl

theorem givenIndent_cons (least : Nat) (c : Char) (text : List Char) :
    givenIndent least (c :: text) =
      if c = ' ' || isBreak c then some (least - 1 + 2) else none := by
  unfold givenIndent indentHint
  by_cases hc : (decide (c = ' ') || isBreak c) = true
  · simp only [if_pos hc]
    rfl
  · simp only [if_neg hc]
    rfl

theorem isBreak_of_getLast?_endLine (text : List Char) :
    ∀ c ∈ (endLine text).getLast?, isBreak c = true := by
  intro c hc
  unfold endLine at hc
  split at hc
  · rename_i h
    rw [hc] at h
    exact h
  · obtain rfl : '\n' = c := by simpa using hc
    rfl

theorem exists_endLine (text : List Char) :
    ∃ more, endLine text = text ++ more ∧ ∀ c ∈ more, c = '\n' := by
  unfold endLine
  split
  · exact ⟨[], by simp, by simp⟩
  · exact ⟨['\n'], rfl, by simp⟩

theorem endLine_of_breaks {text : List Char} (hbreaks : ∀ c ∈ text, isBreak c = true)
    (hne : text ≠ []) : endLine text = text := by
  obtain ⟨init, last, rfl⟩ := (List.eq_nil_or_concat' text).resolve_left hne
  rw [endLine_concat, if_pos (hbreaks last (by simp))]

/-- The column that the head of a block gives is the one that its lines are written at. -/
theorem eq_of_mem_givenIndent (parent : Nat) (text : List Char) :
    ∀ column ∈ givenIndent (parent + 1) text, column = parent + 2 := by
  unfold givenIndent
  split <;> simp

/-- Where the head gives no column, the first line that is not empty tells it. -/
theorem head?_ne_space_of_givenIndent {least : Nat} {text more empty lines : List Char}
    (hne : text ≠ []) (heq : text ++ more = empty ++ lines)
    (hempty : ∀ c ∈ empty, isBreak c = true) (hnone : givenIndent least text = none) :
    lines.head? ≠ some ' ' := by
  obtain ⟨c, tail, rfl⟩ := List.exists_cons_of_ne_nil hne
  rw [givenIndent_cons, ite_eq_right_iff] at hnone
  have hc : c ≠ ' ' ∧ isBreak c = false := by simpa using hnone
  cases empty with
  | nil =>
    rw [List.nil_append, List.cons_append] at heq
    rw [← heq]
    simpa using hc.1
  | cons d empty =>
    obtain rfl := (List.cons.inj heq).1
    have hd := hempty c List.mem_cons_self
    rw [hc.2] at hd
    cases hd

section Literal

variable {text rest : List Char} (hne : text ≠ []) {parent : Nat} (hrest : Continues parent rest)
  (column line : Nat)
include hne hrest

/-- A block of nothing but breaks: all of them are kept. -/
theorem scanBlock_breaks (hbreaks : ∀ c ∈ text, isBreak c = true) :
    ∃ last, scanBlock false (parent + 1)
        ⟨indentHint text ++ chompHint text ++
          '\n' :: (indented (parent + 2) true text ++ rest), column, line⟩ =
      some (text, .onLine last rest) := by
  have hlimit : parent < parent + 2 := by omega
  have hindented : indented (parent + 2) true text = text := by
    have hempty := @indented_empty (parent + 2) [] text hbreaks
    rwa [List.append_nil, indented, List.append_nil] at hempty
  obtain ⟨c, tail, htext⟩ := List.exists_cons_of_ne_nil hne
  have hgiven : givenIndent (parent + 1) text = some (parent + 2) := by
    have hc : isBreak c = true := hbreaks c (by simp [htext])
    rw [htext, givenIndent_cons, if_pos (by simp [hc]), Nat.add_sub_cancel]
  obtain ⟨last, hblanks⟩ :=
    scanBlanks_empty hbreaks (givenIndent (parent + 1) text) [] rest 0 (line + 1)
  obtain ⟨widest, hend⟩ := scanBlanks_end hrest hlimit text 0 last
  rw [hgiven, List.nil_append, hend, ← hgiven] at hblanks
  have hread := @scanLines_end (parent + 2) parent rest
    ⟨[], [], false, text, .onLine last rest⟩ last hrest hlimit rfl
  refine ⟨last, ?_⟩
  rw [hindented, scanBlock_of_lines hblanks (by rw [hgiven]; exact hread),
    chompHint_of_breaks hne hbreaks]
  rfl

/-- A block of lines, perhaps with empty ones before the first. -/
theorem scanBlock_lines {empty lines : List Char} (heq : endLine text = empty ++ lines)
    (hempty : ∀ c ∈ empty, isBreak c = true) (hlines : Lines lines)
    (hprint : ∀ c ∈ lines, isPrintable c = true) :
    ∃ last, scanBlock false (parent + 1)
        ⟨indentHint text ++ chompHint text ++
          '\n' :: (indented (parent + 2) true (endLine text) ++ rest), column, line⟩ =
      some (text, .onLine last rest) := by
  have hlimit : parent < parent + 2 := by omega
  have hindent := eq_of_mem_givenIndent parent text
  have hspace : givenIndent (parent + 1) text = none → lines.head? ≠ some ' ' := by
    obtain ⟨more, hmore, -⟩ := exists_endLine text
    exact head?_ne_space_of_givenIndent hne (hmore.symm.trans heq) hempty
  obtain ⟨next, hblanks⟩ := scanBlanks_empty hempty (givenIndent (parent + 1) text) []
    (indented (parent + 2) true lines ++ rest) 0 (line + 1)
  rw [List.nil_append, scanBlanks_lines hlines hprint hindent hspace] at hblanks
  have hcolumn : (givenIndent (parent + 1) text).getD
      (max (max (max 0 (parent + 2)) (parent + 1)) 1) = parent + 2 := by
    cases hgiven : givenIndent (parent + 1) text with
    | none =>
      rw [Option.getD_none]
      omega
    | some given => exact hindent given hgiven
  obtain ⟨read, last, hread, hplace, hhold⟩ :=
    @scanLines_lines (parent + 2) parent rest lines hlines hprint hrest hlimit
      ⟨[], [], false, empty, ⟨indented (parent + 2) false lines ++ rest, parent + 2, next⟩⟩ next rfl
  refine ⟨last, ?_⟩
  rw [heq, indented_empty hempty, List.append_assoc empty,
    scanBlock_of_lines hblanks (by rw [hcolumn]; exact hread), hplace,
    chomp_eq hne (by simpa [heq] using hhold)]

/-- **A literal block is read back.** -/
theorem scanBlock_literal (hprint : ∀ c ∈ text, isPrintable c = true) :
    ∃ last, scanBlock false (parent + 1)
        ⟨indentHint text ++ chompHint text ++
          '\n' :: (indented (parent + 2) true (endLine text) ++ rest), column, line⟩ =
      some (text, .onLine last rest) := by
  obtain ⟨empty, lines, heq, hempty, hlines⟩ :=
    Lines.exists_of_getLast? (isBreak_of_getLast?_endLine text)
  obtain ⟨more, hmore, hfeed⟩ := exists_endLine text
  rcases hlines with rfl | hlines
  · have hbreaks : ∀ c ∈ text, isBreak c = true := fun c hc =>
      hempty c (by simpa [heq] using (show c ∈ endLine text by simp [hmore, hc]))
    rw [endLine_of_breaks hbreaks hne]
    exact scanBlock_breaks hne hrest column line hbreaks
  · refine scanBlock_lines hne hrest column line heq hempty hlines fun c hc => ?_
    have hmem : c ∈ text ++ more := by simp [← hmore, heq, hc]
    rcases List.mem_append.mp hmem with hmem | hmem
    · exact hprint c hmem
    · rw [hfeed c hmem]
      rfl

end Literal

end NetLab.Yaml
