import NetLab.Proofs.Yaml.Literals
import NetLab.Proofs.Yaml.Plain
import NetLab.Proofs.Yaml.Quoted

/-!
# What is written is read back

A text is read back whatever style it is written in (`reads_scalar`).  The lines of a collection are
read entry by entry until a line stands further to the left (`Stops`).  So every block whose keys are
words is read back to a node of its shape (`Block.node`), as the value of a key and as an item of a
sequence: the writer puts the two in different columns (`HasKeys.reads`).
-/

namespace NetLab.Yaml

/-! ## Nodes in one piece -/

/-- A reading of a piece is no key: the line after it does not begin with a colon. -/
theorem readKey_of_reads {least limit : Nat} {s : State} {node : Node} {rest : List Char}
    {anchors : List Anchor} (hrest : Continues limit rest)
    (h : Reads (readPiece least .none s) node rest anchors) : readKey least s = none := by
  obtain ⟨after, line, hpiece, hskip⟩ := h
  have hcolon : (State.onLine line rest anchors).head? ≠ some ':' := by
    intro heq
    have hname := hrest.begins ':' heq
    cases hname
  unfold readKey
  rw [hpiece]
  split
  · simp [hskip, endsKey, hcolon]
  · rfl

section Pieces

variable {limit least column line : Nat} {fresh : Bool} {anchors : List Anchor}
  {rest : List Char} (hrest : Continues limit rest)
include hrest

theorem readBlock_of_reads {c : Char} {text : List Char} {node : Node}
    (hmark : c = '-' ∨ c = '?' ∨ c = ':' → blankAhead text = false)
    (hc : c ∉ ['|', '>', '&', '!'])
    (h : Reads (readPiece least .none ⟨⟨c :: text, column, line⟩, fresh, anchors⟩) node rest
      anchors)
    (inMapping : Bool) :
    Reads (readBlock least inMapping .none ⟨⟨c :: text, column, line⟩, fresh, anchors⟩) node rest
      anchors := by
  have hkey := readKey_of_reads hrest h
  have hindicator : ∀ mark, mark = '-' ∨ mark = '?' ∨ mark = ':' →
      Place.atIndicator mark ⟨c :: text, column, line⟩ = false := by
    intro mark hmem
    by_cases heq : c = mark
    · subst heq
      simp [Place.atIndicator, hmark hmem]
    · simp [Place.atIndicator, heq]
  simp only [List.mem_cons, List.not_mem_nil, or_false, not_or] at hc
  rw [readBlock]
  simpa [hindicator, hkey, beginsBlockScalar, State.head?, hc, Properties.isNext] using h

end Pieces

/-! ## Texts -/

/-- The text is written as it is. -/
def isUnquoted (text : List Char) : Bool := !readsAsOther text && isPlain text

/-- A node that stands further to the right than what it belongs to is not left out. -/
theorem readValue_of_lt {parent : Nat} {s : State} (hcolumn : parent < s.column) (hne : s.rest ≠ [])
    (inMapping : Bool) (properties : Properties) :
    readValue (parent + 1) inMapping properties s =
      readBlock (parent + 1) inMapping properties s := by
  have hend : s.place.atEnd = false := by
    have hrest : s.place.rest ≠ [] := hne
    have hpos : 0 < s.place.column := Nat.zero_lt_of_lt hcolumn
    simp [Place.atEnd, hrest, Place.atMark_of_pos hpos]
  have hlt : ¬s.column + 1 < parent + 1 := by omega
  have heq : s.column ≠ parent := by omega
  rw [readValue]
  simp [leavesOut, hend, hlt, heq]

theorem endLine_of_not_break {text : List Char} (h : ∀ c ∈ text.getLast?, isBreak c = false) :
    endLine text = text ++ ['\n'] := by
  rw [endLine, if_neg]
  cases hlast : text.getLast? with
  | none => simp
  | some c => simp [h c hlast]

theorem endLine_ne_nil (text : List Char) : endLine text ≠ [] := by
  cases text with
  | nil => simp [endLine]
  | cons c text =>
    obtain ⟨more, heq, -⟩ := exists_endLine (c :: text)
    simp [heq]

theorem getLast?_indented (indent : Nat) (fresh : Bool) (text : List Char) :
    (indented indent fresh text).getLast? = text.getLast? := by
  induction text generalizing fresh with
  | nil => rfl
  | cons c text ih =>
    rw [indented]
    split <;> simp [List.getLast?_cons, List.getLast?_append, ih]

theorem indented_append_feed (indent : Nat) (fresh : Bool) (text : List Char) :
    indented indent fresh (text ++ ['\n']) = indented indent fresh text ++ ['\n'] := by
  induction text generalizing fresh with
  | nil => rfl
  | cons c text ih =>
    rw [List.cons_append, indented, indented]
    split <;> simp [ih]

theorem endLine_literal (indent : Nat) {text : List Char} (hne : text ≠ []) :
    endLine (literal indent text) =
      '|' :: (indentHint text ++ chompHint text ++
        '\n' :: indented indent true (endLine text)) := by
  have hlast : (literal indent text).getLast? = text.getLast? := by
    obtain ⟨c, hc⟩ := Option.ne_none_iff_exists'.mp (mt List.getLast?_eq_none_iff.mp hne)
    simp [literal, List.getLast?_append, List.getLast?_cons, getLast?_indented, hc]
  rw [endLine, hlast, endLine]
  split
  · simp [literal]
  · rw [indented_append_feed]
    simp [literal]

section Scalars

variable {parent column : Nat} {rest : List Char} (hrest : Continues parent rest)
  (line : Nat) (fresh : Bool) (anchors : List Anchor)
include hrest

theorem reads_literal {text : List Char} (hne : text ≠ [])
    (hprint : ∀ c ∈ text, isPrintable c = true) (column : Nat) (inMapping : Bool) :
    Reads (readBlock (parent + 1) inMapping .none
        ⟨⟨endLine (literal (parent + 2) text) ++ rest, column, line⟩, fresh, anchors⟩)
      (.scalar (String.ofList text) false none) rest anchors := by
  obtain ⟨last, hscan⟩ := scanBlock_literal hne hrest (column + 1) line hprint
  refine ⟨.onLine last rest anchors, last, ?_, State.skip_onLine hrest last anchors⟩
  rw [endLine_literal _ hne, List.cons_append, List.append_assoc, List.cons_append]
  generalize indentHint text ++ chompHint text ++
    '\n' :: (indented (parent + 2) true (endLine text) ++ rest) = body at hscan
  have hkey : readKey (parent + 1) ⟨⟨'|' :: body, column, line⟩, fresh, anchors⟩ = none := by
    unfold readKey
    rw [readPiece]
    simp [Properties.isNext, State.head?, readScalar, State.rest, beginsPlain, isSpace, isBreak,
      isIndicator]
  rw [readBlock]
  simp [Place.atIndicator, hkey, beginsBlockScalar, State.head?, Place.next, isBreak, hscan]
  rfl

theorem reads_bare {text : List Char} (h : IsBare text) (hcolumn : parent < column)
    (inMapping : Bool) :
    Reads (readBlock (parent + 1) inMapping .none
        ⟨⟨endLine text ++ rest, column, line⟩, fresh, anchors⟩)
      (.scalar (String.ofList text) true none) rest anchors := by
  have hlast : ∀ c ∈ text.getLast?, isBreak c = false := fun c hc =>
    (h.inLine c (List.mem_of_getLast? hc)).2
  have hpiece : Reads (readPiece (parent + 1) .none
      ⟨⟨text ++ '\n' :: rest, column, line⟩, fresh, anchors⟩)
      (.scalar (String.ofList text) true none) rest anchors :=
    ⟨_, line + 1, readPiece_plain h hrest (by omega) hcolumn line fresh anchors,
      State.skip_onLine hrest (line + 1) anchors⟩
  rw [endLine_of_not_break hlast, List.append_assoc, List.singleton_append]
  obtain ⟨c, more, rfl, htoken, hindicator, hafter⟩ := h.exists_cons
  refine readBlock_of_reads hrest (fun hmark => ?_) ?_ hpiece inMapping
  · exact (blankAhead_append_newline more rest).trans (hafter hmark)
  · intro hmem
    simp only [List.mem_cons, List.not_mem_nil, or_false] at hmem
    rcases hmem with rfl | rfl | rfl | rfl <;> cases hindicator

theorem reads_double (text : List Char) (column : Nat) (inMapping : Bool) :
    Reads (readBlock (parent + 1) inMapping .none
        ⟨⟨endLine (doubleQuoted text) ++ rest, column, line⟩, fresh, anchors⟩)
      (.scalar (String.ofList text) false none) rest anchors := by
  have hlast : ∀ c ∈ (doubleQuoted text).getLast?, isBreak c = false := by
    rw [doubleQuoted, List.getLast?_concat]
    simp [isBreak]
  have hpiece := reads_doubleQuoted hrest (parent + 1) column line fresh anchors text
  rw [endLine_of_not_break hlast, List.append_assoc, List.singleton_append]
  exact readBlock_of_reads hrest (by simp) (by simp) hpiece inMapping

theorem reads_single {text : List Char} (h : IsEven text) (column : Nat) (inMapping : Bool) :
    Reads (readBlock (parent + 1) inMapping .none
        ⟨⟨endLine (singleQuoted (parent + 2) text) ++ rest, column, line⟩, fresh, anchors⟩)
      (.scalar (String.ofList text) false none) rest anchors := by
  have hlast : ∀ c ∈ (singleQuoted (parent + 2) text).getLast?, isBreak c = false := by
    rw [singleQuoted, List.getLast?_concat]
    simp [isBreak]
  have hpiece := reads_singleQuoted hrest (parent + 1) column line fresh anchors
    (show 0 < parent + 2 by omega) h
  rw [endLine_of_not_break hlast, List.append_assoc, List.singleton_append]
  exact readBlock_of_reads hrest (by simp) (by simp) hpiece inMapping

/-- **A text is read back**, whatever style it is written in. -/
theorem reads_scalar (hcolumn : parent < column) (text : List Char) (inMapping : Bool) :
    Reads (readValue (parent + 1) inMapping .none
        ⟨⟨endLine (scalar (parent + 2) text) ++ rest, column, line⟩, fresh, anchors⟩)
      (.scalar (String.ofList text) (isUnquoted text) none) rest anchors := by
  rw [readValue_of_lt hcolumn (by simp [State.rest, endLine_ne_nil])]
  unfold scalar
  by_cases hfeed : '\n' ∈ text
  · have hunquoted : isUnquoted text = false := by
      have hbreak : text.any isBreak = true := List.any_eq_true.mpr ⟨'\n', hfeed, rfl⟩
      simp [isUnquoted, isPlain, hbreak]
    rw [if_pos (by simpa using hfeed), hunquoted]
    by_cases hliteral : isLiteral text = true
    · rw [if_pos hliteral]
      simp only [isLiteral, isClean, Bool.and_eq_true, List.all_eq_true] at hliteral
      exact reads_literal hrest line fresh anchors (List.ne_nil_of_mem hfeed) hliteral.1.1 column
        inMapping
    · rw [if_neg hliteral]
      exact reads_double hrest line fresh anchors text column inMapping
  · rw [if_neg (by simpa using hfeed)]
    by_cases hunquoted : isUnquoted text = true
    · have hparts := hunquoted
      simp only [isUnquoted, Bool.and_eq_true] at hparts
      have htext : text ≠ [] := by
        rintro rfl
        cases hparts.1
      rw [if_pos (by simpa [isUnquoted] using hunquoted), hunquoted]
      exact reads_bare hrest line fresh anchors (isBare_of_isPlain htext hparts.2) hcolumn inMapping
    · rw [if_neg (by simpa [isUnquoted] using hunquoted), Bool.eq_false_iff.mpr hunquoted]
      by_cases hsingle : isSingleQuotable text = true
      · rw [if_pos hsingle]
        have heven := isEven_of_isSingleQuotable hfeed hsingle
        exact reads_single hrest line fresh anchors heven column inMapping
      · rw [if_neg hsingle]
        exact reads_double hrest line fresh anchors text column inMapping

end Scalars

theorem exists_cons_scalar (indent : Nat) (text : List Char) :
    ∃ c more, scalar indent text = c :: more ∧ beginsToken c = true := by
  unfold scalar
  split
  · split
    · exact ⟨'|', _, rfl, by decide⟩
    · exact ⟨'"', _, rfl, by decide⟩
  · split
    · rename_i h
      simp only [Bool.and_eq_true] at h
      have hne : text ≠ [] := by
        rintro rfl
        cases h.1
      obtain ⟨c, more, heq, htoken, -⟩ := (isBare_of_isPlain hne h.2).exists_cons
      exact ⟨c, more, heq, htoken⟩
    · split
      · exact ⟨'\'', _, rfl, by decide⟩
      · exact ⟨'"', _, rfl, by decide⟩

theorem beginsToken_scalar (indent : Nat) (text rest : List Char) :
    ∀ c ∈ (endLine (scalar indent text) ++ rest).head?, beginsToken c = true := by
  obtain ⟨c, more, heq, htoken⟩ := exists_cons_scalar indent text
  obtain ⟨tail, hend, -⟩ := exists_endLine (scalar indent text)
  rw [hend, heq]
  simpa using htoken

theorem skip_scalar (indent : Nat) (text rest : List Char) (column line : Nat) (fresh : Bool)
    (anchors : List Anchor) :
    State.skip false ⟨⟨endLine (scalar indent text) ++ rest, column, line⟩, fresh, anchors⟩ =
      ⟨⟨endLine (scalar indent text) ++ rest, column, line⟩, fresh, anchors⟩ := by
  apply State.skip_of_beginsToken
  exact beginsToken_scalar indent text rest

/-! ## Collections -/

namespace Block

mutual

/-- The node that a block is read back to: a text is a plain scalar if it is written as it is. -/
def node : Block → Node
  | .text value => .scalar value (isUnquoted value.toList) none
  | .sequence items => .sequence (nodes items)
  | .mapping entries => .mapping (entryNodes entries)

def nodes : List Block → List Node
  | [] => []
  | item :: rest => item.node :: nodes rest

def entryNodes : List (String × Block) → List (Node × Node)
  | [] => []
  | (key, value) :: rest => (.scalar key true none, value.node) :: entryNodes rest

end

/-- Every key is a word. -/
inductive HasKeys : Block → Prop where
  | text (value : String) : HasKeys (.text value)
  | sequence {items : List Block} (hitems : ∀ item ∈ items, HasKeys item) :
      HasKeys (.sequence items)
  | mapping {entries : List (String × Block)}
      (hkeys : ∀ entry ∈ entries, isKey entry.1.toList = true)
      (hvalues : ∀ entry ∈ entries, HasKeys entry.2) : HasKeys (.mapping entries)

end Block

section Empty

variable {parent column : Nat} {rest : List Char} (hrest : Continues parent rest)
  (hcolumn : parent < column) (line : Nat) (fresh : Bool) (anchors : List Anchor)
include hrest hcolumn

theorem reads_emptySequence (inMapping : Bool) :
    Reads (readValue (parent + 1) inMapping .none
        (State.skip false ⟨⟨'[' :: ']' :: '\n' :: rest, column, line⟩, fresh, anchors⟩))
      (.sequence []) rest anchors := by
  have hopen : State.skip false ⟨⟨'[' :: ']' :: '\n' :: rest, column, line⟩, fresh, anchors⟩ =
      ⟨⟨'[' :: ']' :: '\n' :: rest, column, line⟩, fresh, anchors⟩ :=
    State.skip_of_beginsToken (by simp [State.rest, beginsToken, isBreak, isSpace]) false
  have hclose : State.skip true ⟨⟨']' :: '\n' :: rest, column + 1, line⟩, true, anchors⟩ =
      ⟨⟨']' :: '\n' :: rest, column + 1, line⟩, true, anchors⟩ :=
    State.skip_of_beginsToken (by simp [State.rest, beginsToken, isBreak, isSpace]) true
  have hitems : readItems (parent + 1) []
      ⟨⟨']' :: '\n' :: rest, column + 1, line⟩, true, anchors⟩ =
      some ([], ⟨⟨'\n' :: rest, column + 1 + 1, line⟩, false, anchors⟩) := by
    rw [readItems]
    simp [State.head?, State.move, Place.next, isBreak]
  have hflow : readFlow (parent + 1) .none
      ⟨⟨'[' :: ']' :: '\n' :: rest, column, line⟩, fresh, anchors⟩ =
      some (.sequence [], ⟨⟨'\n' :: rest, column + 1 + 1, line⟩, false, anchors⟩) := by
    rw [readFlow]
    simp [Properties.isNext, State.head?, Place.atEnd, Place.atMark_of_ne, State.move, Place.next,
      isBreak, hclose, State.size, hitems]
    rfl
  have hpiece : Reads (readPiece (parent + 1) .none
      ⟨⟨'[' :: ']' :: '\n' :: rest, column, line⟩, fresh, anchors⟩) (.sequence []) rest
      anchors := by
    refine ⟨_, line + 1, ?_, State.skip_line hrest (column + 1 + 1) line false anchors⟩
    rw [readPiece]
    simp [Properties.isNext, State.head?, hflow]
  rw [hopen, readValue_of_lt hcolumn (by simp [State.rest])]
  exact readBlock_of_reads hrest (by simp) (by simp) hpiece inMapping

theorem reads_emptyMapping (inMapping : Bool) :
    Reads (readValue (parent + 1) inMapping .none
        (State.skip false ⟨⟨'\x7b' :: '\x7d' :: '\n' :: rest, column, line⟩, fresh, anchors⟩))
      (.mapping []) rest anchors := by
  have hopen : State.skip false ⟨⟨'\x7b' :: '\x7d' :: '\n' :: rest, column, line⟩, fresh, anchors⟩ =
      ⟨⟨'\x7b' :: '\x7d' :: '\n' :: rest, column, line⟩, fresh, anchors⟩ :=
    State.skip_of_beginsToken (by simp [State.rest, beginsToken, isBreak, isSpace]) false
  have hclose : State.skip true ⟨⟨'\x7d' :: '\n' :: rest, column + 1, line⟩, true, anchors⟩ =
      ⟨⟨'\x7d' :: '\n' :: rest, column + 1, line⟩, true, anchors⟩ :=
    State.skip_of_beginsToken (by simp [State.rest, beginsToken, isBreak, isSpace]) true
  have hpairs : readPairs (parent + 1) []
      ⟨⟨'\x7d' :: '\n' :: rest, column + 1, line⟩, true, anchors⟩ =
      some ([], ⟨⟨'\n' :: rest, column + 1 + 1, line⟩, false, anchors⟩) := by
    rw [readPairs]
    simp [State.head?, State.move, Place.next, isBreak]
  have hflow : readFlow (parent + 1) .none
      ⟨⟨'\x7b' :: '\x7d' :: '\n' :: rest, column, line⟩, fresh, anchors⟩ =
      some (.mapping [], ⟨⟨'\n' :: rest, column + 1 + 1, line⟩, false, anchors⟩) := by
    rw [readFlow]
    simp [Properties.isNext, State.head?, Place.atEnd, Place.atMark_of_ne, State.move, Place.next,
      isBreak, hclose, State.size, hpairs]
    rfl
  have hpiece : Reads (readPiece (parent + 1) .none
      ⟨⟨'\x7b' :: '\x7d' :: '\n' :: rest, column, line⟩, fresh, anchors⟩) (.mapping []) rest
      anchors := by
    refine ⟨_, line + 1, ?_, State.skip_line hrest (column + 1 + 1) line false anchors⟩
    rw [readPiece]
    simp [Properties.isNext, State.head?, hflow]
  rw [hopen, readValue_of_lt hcolumn (by simp [State.rest])]
  exact readBlock_of_reads hrest (by simp) (by simp) hpiece inMapping

end Empty

/-! ## What follows a collection -/

/-- The lines of a collection at the column end before the text: it is over, goes on further to the
left, or goes on with a key where the collection is a sequence in a mapping. -/
def Stops (column : Nat) (inMapping : Bool) (rest : List Char) : Prop :=
  rest = [] ∨ (Place.onLine 0 rest).column < column ∨
    (inMapping = true ∧ (Place.onLine 0 rest).atIndicator '-' = false)

theorem Stops.deeper {parent column : Nat} {rest : List Char} (h : Continues parent rest)
    (hlt : parent < column) : Stops column false rest :=
  Or.inr (Or.inl (Nat.lt_of_le_of_lt h.column_le hlt))

namespace Block

theorem onLine_items (column line : Nat) (item : Block) (items : List Block) (rest : List Char) :
    Place.onLine line (writeItems column (item :: items) ++ rest) =
      ⟨'-' :: ' ' :: (write (itemColumn column item) item ++ (writeItems column items ++ rest)),
        column, line⟩ := by
  have hline := @Place.afterWhile_indentation column ('-' :: ' ' ::
    (write (itemColumn column item) item ++ (writeItems column items ++ rest))) (by simp) 0 line
  rw [Nat.zero_add] at hline
  rw [← hline, Place.onLine, writeItems, indentation]
  simp

theorem continues_items {column : Nat} {rest : List Char} (hrest : Continues column rest)
    (items : List Block) : Continues column (writeItems column items ++ rest) := by
  cases items with
  | nil => exact hrest
  | cons item items =>
    rw [writeItems, indentation, List.append_assoc, List.append_assoc]
    exact Continues.line (Nat.le_refl column) (by decide) _

theorem onLine_entries (column line : Nat) {key : String} (hkey : isKey key.toList = true)
    (value : Block) (entries : List (String × Block)) (rest : List Char) :
    Place.onLine line (writeEntries column ((key, value) :: entries) ++ rest) =
      ⟨key.toList ++ ':' :: (writeValue column value ++ (writeEntries column entries ++ rest)),
        column, line⟩ := by
  obtain ⟨c, more, heq, halpha, -⟩ := exists_cons_of_isKey hkey
  have hspace : c ≠ ' ' := ne_of_test halpha (by decide)
  have hline := @Place.afterWhile_indentation column (key.toList ++ ':' ::
    (writeValue column value ++ (writeEntries column entries ++ rest)))
    (by simpa [heq] using hspace) 0 line
  rw [Nat.zero_add] at hline
  rw [← hline, Place.onLine, writeEntries, indentation]
  simp

theorem continues_entries {column : Nat} {rest : List Char} (hrest : Continues column rest)
    {entries : List (String × Block)}
    (hkeys : ∀ entry ∈ entries, isKey entry.1.toList = true) :
    Continues column (writeEntries column entries ++ rest) := by
  cases entries with
  | nil => exact hrest
  | cons entry entries =>
    obtain ⟨key, value⟩ := entry
    obtain ⟨c, more, heq, halpha, hname, -⟩ :=
      exists_cons_of_isKey (hkeys (key, value) List.mem_cons_self)
    rw [writeEntries, indentation, heq, List.append_assoc, List.append_assoc, List.append_assoc]
    exact Continues.line (Nat.le_refl column) (hname c (by simp [heq])) _

/-- The state at a sequence, wherever its first line begins. -/
theorem state_sequence (column line : Nat) (item : Block) (items : List Block) (rest : List Char)
    (anchors : List Anchor) :
    ⟨⟨write column (.sequence (item :: items)) ++ rest, column, line⟩, true, anchors⟩ =
      State.onLine line (writeItems column (item :: items) ++ rest) anchors := by
  rw [State.onLine, onLine_items, write]
  simp

/-- The state at a mapping, wherever its first line begins. -/
theorem state_mapping {key : String} (hkey : isKey key.toList = true) (column line : Nat)
    (value : Block) (entries : List (String × Block)) (rest : List Char) (anchors : List Anchor) :
    ⟨⟨write column (.mapping ((key, value) :: entries)) ++ rest, column, line⟩, true, anchors⟩ =
      State.onLine line (writeEntries column ((key, value) :: entries) ++ rest) anchors := by
  rw [State.onLine, onLine_entries column line hkey, write]
  simp

theorem blankAhead_writeValue (column : Nat) (value : Block) (rest : List Char) :
    blankAhead (writeValue column value ++ rest) = true := by
  match value with
  | .text _ => rfl
  | .sequence [] => rfl
  | .sequence (_ :: _) => rfl
  | .mapping [] => rfl
  | .mapping (_ :: _) => rfl

end Block

/-! ## Steps over a collection -/

section Steps

variable {column line : Nat} {anchors : List Anchor} {text rest : List Char} {inMapping : Bool}

/-- The item after a dash, and the line after the item. -/
theorem readEntries_item {node : Node}
    (h : Reads (readValue (column + 1) false .none
      (State.skip false ⟨⟨text, column + 1, line⟩, true, anchors⟩)) node rest anchors)
    (read : List Node) :
    ∃ last, readEntries column inMapping read ⟨⟨'-' :: text, column, line⟩, true, anchors⟩ =
      let next := State.onLine last rest anchors
      if next.place.atEnd || next.column < column then some ((node :: read).reverse, next)
      else if next.column = column then
        if next.place.atIndicator '-' then
          if next.size < text.length + 1 then readEntries column inMapping (node :: read) next
          else none
        else if inMapping then some ((node :: read).reverse, next)
        else none
      else none := by
  obtain ⟨after, last, hvalue, hskip⟩ := h
  have hnext : Place.next ⟨'-' :: text, column, line⟩ = ⟨text, column + 1, line⟩ :=
    Place.next_of_not_break (by decide) text column line
  have hshorter : (State.skip false ⟨⟨text, column + 1, line⟩, true, anchors⟩).size <
      State.size ⟨⟨'-' :: text, column, line⟩, true, anchors⟩ :=
    Nat.lt_succ_of_le (State.size_skip_le false _)
  refine ⟨last, ?_⟩
  rw [readEntries]
  simp only [State.move, hnext, hvalue, hskip]
  rw [if_pos hshorter]
  rfl

/-- The sequence ends where it stops. -/
theorem readEntries_last {node : Node}
    (h : Reads (readValue (column + 1) false .none
      (State.skip false ⟨⟨text, column + 1, line⟩, true, anchors⟩)) node rest anchors)
    (hrest : Continues column rest) (hstops : Stops column inMapping rest) (read : List Node) :
    ∃ last, readEntries column inMapping read ⟨⟨'-' :: text, column, line⟩, true, anchors⟩ =
      some ((node :: read).reverse, .onLine last rest anchors) := by
  obtain ⟨last, heq⟩ := readEntries_item h read
  refine ⟨last, heq.trans ?_⟩
  rcases hstops with rfl | hleft | ⟨rfl, hdash⟩
  · rfl
  · have hleft : (State.onLine last rest anchors).column < column := hleft
    simp [hleft]
  · have hdash : (State.onLine last rest anchors).place.atIndicator '-' = false := hdash
    by_cases hend : ((State.onLine last rest anchors).place.atEnd ||
        (State.onLine last rest anchors).column < column) = true
    · simp only [if_pos hend]
    · have hcolumn : (State.onLine last rest anchors).column = column := by
        have hle : (State.onLine last rest anchors).column ≤ column := hrest.column_le
        simp only [Bool.or_eq_true, decide_eq_true_eq, not_or] at hend
        omega
      simp only [if_neg hend, if_pos hcolumn, hdash]
      rfl

/-- The sequence goes on with the next dash at its column. -/
theorem readEntries_more {node : Node} {more : List Char}
    (h : Reads (readValue (column + 1) false .none
      (State.skip false ⟨⟨text, column + 1, line⟩, true, anchors⟩)) node rest anchors)
    (hline : ∀ line, Place.onLine line rest = ⟨'-' :: ' ' :: more, column, line⟩)
    (hlength : more.length + 1 < text.length) (read : List Node) :
    ∃ last, readEntries column inMapping read ⟨⟨'-' :: text, column, line⟩, true, anchors⟩ =
      readEntries column inMapping (node :: read) (.onLine last rest anchors) := by
  obtain ⟨last, heq⟩ := readEntries_item h read
  refine ⟨last, heq.trans ?_⟩
  have hsize : more.length + 1 + 1 < text.length + 1 := by omega
  simp [State.onLine, State.column, State.size, hline, Place.atEnd_of_dash, Place.atIndicator,
    blankAhead, isSpace, hsize]

/-- The entry after a key, and the line after the entry. -/
theorem readMapping_entry {key : List Char} (hkey : isKey key = true)
    (hblank : blankAhead text = true) {node : Node}
    (h : Reads (readValue (column + 1) true .none
      (State.skip false ⟨⟨text, column + key.length + 1, line⟩, false, anchors⟩)) node rest anchors)
    (read : List (Node × Node)) :
    ∃ last, readMapping column read ⟨⟨key ++ ':' :: text, column, line⟩, true, anchors⟩ =
      let next := State.onLine last rest anchors
      let read := (Node.scalar (String.ofList key) true none, node) :: read
      if next.place.atEnd || next.column < column then some (read.reverse, next)
      else if next.column = column then
        if next.size < (key ++ ':' :: text).length then readMapping column read next else none
      else none := by
  obtain ⟨after, last, hvalue, hskip⟩ := h
  have hquestion : Place.atIndicator '?' ⟨key ++ ':' :: text, column, line⟩ = false := by
    obtain ⟨c, more, rfl, halpha, -⟩ := exists_cons_of_isKey hkey
    have hne : c ≠ '?' := ne_of_test halpha (by decide)
    simp [Place.atIndicator, hne]
  have hshorter :
      (State.skip false ⟨⟨text, column + key.length + 1, line⟩, false, anchors⟩).size <
        State.size ⟨⟨key ++ ':' :: text, column, line⟩, true, anchors⟩ := by
    have hle := State.size_skip_le false ⟨⟨text, column + key.length + 1, line⟩, false, anchors⟩
    simp only [State.size, List.length_append, List.length_cons] at hle ⊢
    omega
  refine ⟨last, ?_⟩
  rw [readMapping]
  simp only [hquestion, Bool.false_eq_true, if_false, readKey_key hkey hblank, if_pos hshorter,
    hvalue, Option.map_some, hskip]
  rfl

/-- The mapping ends where it stops. -/
theorem readMapping_last {key : List Char} (hkey : isKey key = true)
    (hblank : blankAhead text = true) {node : Node}
    (h : Reads (readValue (column + 1) true .none
      (State.skip false ⟨⟨text, column + key.length + 1, line⟩, false, anchors⟩)) node rest anchors)
    (hstops : Stops column false rest) (read : List (Node × Node)) :
    ∃ last, readMapping column read ⟨⟨key ++ ':' :: text, column, line⟩, true, anchors⟩ =
      some (((.scalar (String.ofList key) true none, node) :: read).reverse,
        .onLine last rest anchors) := by
  obtain ⟨last, heq⟩ := readMapping_entry hkey hblank h read
  refine ⟨last, heq.trans ?_⟩
  rcases hstops with rfl | hleft | ⟨hnone, -⟩
  · rfl
  · have hleft : (State.onLine last rest anchors).column < column := hleft
    simp [hleft]
  · cases hnone

/-- The mapping goes on with the next key at its column. -/
theorem readMapping_more {key : List Char} (hkey : isKey key = true)
    (hblank : blankAhead text = true) {node : Node}
    (h : Reads (readValue (column + 1) true .none
      (State.skip false ⟨⟨text, column + key.length + 1, line⟩, false, anchors⟩)) node rest anchors)
    {c : Char} (hc : c.isAlpha = true) {more : List Char}
    (hline : ∀ line, Place.onLine line rest = ⟨c :: more, column, line⟩)
    (hlength : more.length < text.length) (read : List (Node × Node)) :
    ∃ last, readMapping column read ⟨⟨key ++ ':' :: text, column, line⟩, true, anchors⟩ =
      readMapping column ((.scalar (String.ofList key) true none, node) :: read)
        (.onLine last rest anchors) := by
  obtain ⟨last, heq⟩ := readMapping_entry hkey hblank h read
  refine ⟨last, heq.trans ?_⟩
  have hsize : more.length + 1 < key.length + (text.length + 1) := by omega
  simp [State.onLine, State.column, State.size, hline, Place.atEnd_of_isAlpha hc, hsize]

end Steps

/-! ## Blocks -/

namespace Block

/-- A sequence may stand at the column of the mapping that it is a value in. -/
theorem readValue_of_dash (parent line : Nat) (item : Block) (items : List Block) (rest : List Char)
    (anchors : List Anchor) (properties : Properties) :
    readValue (parent + 1) true properties
        (.onLine line (writeItems parent (item :: items) ++ rest) anchors) =
      readBlock (parent + 1) true properties
        (.onLine line (writeItems parent (item :: items) ++ rest) anchors) := by
  rw [readValue]
  simp [leavesOut, State.onLine, onLine_items, Place.atEnd_of_dash, State.column, Place.atIndicator,
    blankAhead, isSpace]

section Begins

variable {least column line last : Nat} {inMapping : Bool} {rest : List Char}
  {anchors : List Anchor} (hrest : Continues column rest)
include hrest

/-- A dash begins a sequence. -/
theorem reads_sequence {item : Block} {items : List Block}
    (h : readEntries column (column + 1 = least) []
        (.onLine line (writeItems column (item :: items) ++ rest) anchors) =
      some (nodes (item :: items), .onLine last rest anchors)) :
    Reads (readBlock least inMapping .none
        (.onLine line (writeItems column (item :: items) ++ rest) anchors))
      (.sequence (nodes (item :: items))) rest anchors := by
  refine ⟨.onLine last rest anchors, last, ?_, State.skip_onLine hrest last anchors⟩
  rw [readBlock]
  simp only [State.onLine, onLine_items] at h ⊢
  simp only [Place.atIndicator, blankAhead, isSpace, State.column, decide_true, Bool.true_or,
    Bool.and_self, if_true, Option.map_eq_some_iff]
  exact ⟨_, h, rfl⟩

/-- A key begins a mapping. -/
theorem reads_mapping {key : String} (hkey : isKey key.toList = true) {value : Block}
    {entries : List (String × Block)}
    (h : readMapping column []
        (.onLine line (writeEntries column ((key, value) :: entries) ++ rest) anchors) =
      some (entryNodes ((key, value) :: entries), .onLine last rest anchors)) :
    Reads (readBlock least inMapping .none
        (.onLine line (writeEntries column ((key, value) :: entries) ++ rest) anchors))
      (.mapping (entryNodes ((key, value) :: entries))) rest anchors := by
  refine ⟨.onLine last rest anchors, last, ?_, State.skip_onLine hrest last anchors⟩
  simp only [State.onLine, onLine_entries column line hkey] at h ⊢
  have hread := readKey_key hkey (blankAhead_writeValue column value
    (writeEntries column entries ++ rest)) least column line anchors
  have hdash : Place.atIndicator '-' ⟨key.toList ++ ':' :: (writeValue column value ++
      (writeEntries column entries ++ rest)), column, line⟩ = false := by
    obtain ⟨c, more, heq, halpha, -⟩ := exists_cons_of_isKey hkey
    have hne : c ≠ '-' := ne_of_test halpha (by decide)
    simp [Place.atIndicator, heq, hne]
  rw [readBlock]
  simp only [hdash, hread, Option.isSome_some, Bool.or_true, Bool.false_eq_true, if_false, if_true,
    Option.map_eq_some_iff]
  exact ⟨_, h, rfl⟩

end Begins

/-- As a value in a mapping, after the colon of its key, the block is read back. -/
def ReadsAsValue (block : Block) : Prop :=
  ∀ {parent : Nat} {rest : List Char}, Continues parent rest → Stops parent true rest →
    ∀ {column : Nat}, parent ≤ column → ∀ (line : Nat) (anchors : List Anchor),
      Reads (readValue (parent + 1) true .none
          (State.skip false ⟨⟨writeValue parent block ++ rest, column, line⟩, false, anchors⟩))
        block.node rest anchors

/-- As an item in a sequence, after its dash, the block is read back. -/
def ReadsAsItem (block : Block) : Prop :=
  ∀ {parent : Nat} {rest : List Char}, Continues parent rest →
    ∀ (line : Nat) (anchors : List Anchor),
      Reads (readValue (parent + 1) false .none
          (State.skip false
            ⟨⟨' ' :: (write (itemColumn parent block) block ++ rest), parent + 1, line⟩, true,
              anchors⟩))
        block.node rest anchors

/-- **The items of a sequence are read back** if each of them is. -/
theorem readEntries_items {item : Block} {items : List Block}
    (hitems : ∀ block ∈ item :: items, block.ReadsAsItem) {column : Nat} {rest : List Char}
    {inMapping : Bool} (hrest : Continues column rest) (hstops : Stops column inMapping rest)
    (read : List Node) (line : Nat) (anchors : List Anchor) :
    ∃ last, readEntries column inMapping read
        (.onLine line (writeItems column (item :: items) ++ rest) anchors) =
      some (read.reverse ++ nodes (item :: items), .onLine last rest anchors) := by
  induction items generalizing item read line with
  | nil =>
    have hitem := hitems item List.mem_cons_self hrest line anchors
    obtain ⟨last, heq⟩ := readEntries_last hitem hrest hstops read
    refine ⟨last, ?_⟩
    rw [State.onLine, onLine_items]
    exact heq.trans (by simp [nodes])
  | cons next items ih =>
    have hitem :=
      hitems item List.mem_cons_self (continues_items hrest (next :: items)) line anchors
    obtain ⟨last, heq⟩ := readEntries_more hitem (onLine_items column · next items rest)
      (by simp [writeItems]; omega) read
    obtain ⟨last', hmore⟩ :=
      ih (fun block hblock => hitems block (List.mem_cons_of_mem item hblock))
        (item.node :: read) last
    refine ⟨last', ?_⟩
    rw [State.onLine, onLine_items]
    exact heq.trans (hmore.trans (by simp [nodes]))

/-- **The entries of a mapping are read back** if their values are. -/
theorem readMapping_entries {key : String} {value : Block} {entries : List (String × Block)}
    (hkeys : ∀ entry ∈ (key, value) :: entries, isKey entry.1.toList = true)
    (hvalues : ∀ entry ∈ (key, value) :: entries, entry.2.ReadsAsValue) {column : Nat}
    {rest : List Char} (hrest : Continues column rest) (hstops : Stops column false rest)
    (read : List (Node × Node)) (line : Nat) (anchors : List Anchor) :
    ∃ last, readMapping column read
        (.onLine line (writeEntries column ((key, value) :: entries) ++ rest) anchors) =
      some (read.reverse ++ entryNodes ((key, value) :: entries), .onLine last rest anchors) := by
  induction entries generalizing key value read line with
  | nil =>
    have hkey : isKey key.toList = true := hkeys (key, value) List.mem_cons_self
    have hundashed : Stops column true rest := by
      rcases hstops with hnil | hleft | ⟨hnone, -⟩
      · exact Or.inl hnil
      · exact Or.inr (Or.inl hleft)
      · cases hnone
    have hvalue := hvalues (key, value) List.mem_cons_self hrest hundashed
      (show column ≤ column + key.toList.length + 1 by omega) line anchors
    obtain ⟨last, heq⟩ := readMapping_last hkey (blankAhead_writeValue column value rest) hvalue
      hstops read
    refine ⟨last, ?_⟩
    rw [State.onLine, onLine_entries column line hkey]
    exact heq.trans (by simp [entryNodes])
  | cons entry entries ih =>
    obtain ⟨next, nextValue⟩ := entry
    have hkey : isKey key.toList = true := hkeys (key, value) List.mem_cons_self
    have hlater : ∀ entry ∈ (next, nextValue) :: entries, isKey entry.1.toList = true :=
      fun entry hentry => hkeys entry (List.mem_cons_of_mem _ hentry)
    have hnext : isKey next.toList = true := hlater (next, nextValue) List.mem_cons_self
    obtain ⟨c, more, hcons, halpha, -⟩ := exists_cons_of_isKey hnext
    have hline (line : Nat) := onLine_entries column line hnext nextValue entries rest
    simp only [hcons, List.cons_append] at hline
    have hundashed :
        Stops column true (writeEntries column ((next, nextValue) :: entries) ++ rest) := by
      have hne : c ≠ '-' := ne_of_test halpha (by decide)
      exact Or.inr (Or.inr ⟨rfl, by simp [hline, Place.atIndicator, hne]⟩)
    have hvalue :=
      hvalues (key, value) List.mem_cons_self (continues_entries hrest hlater) hundashed
        (show column ≤ column + key.toList.length + 1 by omega) line anchors
    obtain ⟨last, heq⟩ := readMapping_more hkey (blankAhead_writeValue column value _) hvalue halpha
      hline (by simp [writeEntries, hcons]; omega) read
    obtain ⟨last', hmore⟩ := ih hlater
      (fun entry hentry => hvalues entry (List.mem_cons_of_mem _ hentry))
      ((.scalar key true none, value.node) :: read) last
    refine ⟨last', ?_⟩
    rw [String.ofList_toList] at heq
    rw [State.onLine, onLine_entries column line hkey]
    exact heq.trans (hmore.trans (by simp [entryNodes]))

theorem readsAsValue_sequence {items : List Block} (h : ∀ item ∈ items, item.ReadsAsItem) :
    (Block.sequence items).ReadsAsValue := by
  intro parent rest hrest hstops column hcolumn line anchors
  cases items with
  | nil =>
    simp only [writeValue, List.cons_append, List.nil_append, State.skip_space, node, nodes]
    exact reads_emptySequence hrest (Nat.lt_succ_of_le hcolumn) line false anchors true
  | cons item items =>
    obtain ⟨last, hitems⟩ := readEntries_items h hrest hstops [] (line + 1) anchors
    rw [writeValue, List.cons_append, State.skip_line (continues_items hrest (item :: items)),
      readValue_of_dash]
    exact reads_sequence hrest (by simpa using hitems)

theorem readsAsItem_sequence {items : List Block} (h : ∀ item ∈ items, item.ReadsAsItem) :
    (Block.sequence items).ReadsAsItem := by
  intro parent rest hrest line anchors
  have hcolumn : parent < parent + 1 + 1 := by omega
  rw [State.skip_space]
  cases items with
  | nil => exact reads_emptySequence hrest hcolumn line true anchors false
  | cons item items =>
    have hdeeper : Continues (parent + 2) rest := hrest.mono (by omega)
    obtain ⟨last, hitems⟩ := readEntries_items h hdeeper (Stops.deeper hrest (by omega)) [] line
      anchors
    rw [itemColumn, state_sequence, State.skip_onLine (continues_items hdeeper (item :: items)),
      readValue_of_lt ?_ ?_]
    · exact reads_sequence hdeeper (by simpa using hitems)
    · simp only [State.onLine, State.column, onLine_items]
      omega
    · simp [State.onLine, State.rest, onLine_items]

theorem reads_deeperMapping {key : String} {value : Block} {entries : List (String × Block)}
    (hkeys : ∀ entry ∈ (key, value) :: entries, isKey entry.1.toList = true)
    (hvalues : ∀ entry ∈ (key, value) :: entries, entry.2.ReadsAsValue) {parent : Nat}
    {rest : List Char} (hrest : Continues parent rest) (inMapping : Bool) (line : Nat)
    (anchors : List Anchor) :
    Reads (readValue (parent + 1) inMapping .none
        (State.skip false
          (.onLine line (writeEntries (parent + 2) ((key, value) :: entries) ++ rest) anchors)))
      (Block.mapping ((key, value) :: entries)).node rest anchors := by
  have hkey : isKey key.toList = true := hkeys (key, value) List.mem_cons_self
  have hdeeper : Continues (parent + 2) rest := hrest.mono (by omega)
  obtain ⟨last, hentries⟩ := readMapping_entries hkeys hvalues hdeeper
    (Stops.deeper hrest (by omega)) [] line anchors
  rw [State.skip_onLine (continues_entries hdeeper hkeys), readValue_of_lt ?_ ?_]
  · exact reads_mapping hdeeper hkey (by simpa using hentries)
  · simp only [State.onLine, State.column, onLine_entries _ _ hkey]
    omega
  · simp [State.onLine, State.rest, onLine_entries _ _ hkey]

theorem readsAsValue_mapping {entries : List (String × Block)}
    (hkeys : ∀ entry ∈ entries, isKey entry.1.toList = true)
    (hvalues : ∀ entry ∈ entries, entry.2.ReadsAsValue) : (Block.mapping entries).ReadsAsValue := by
  intro parent rest hrest hstops column hcolumn line anchors
  match entries with
  | [] =>
    simp only [writeValue, List.cons_append, List.nil_append, State.skip_space, node, entryNodes]
    exact reads_emptyMapping hrest (Nat.lt_succ_of_le hcolumn) line false anchors true
  | (key, value) :: entries =>
    have hdeeper : Continues (parent + 2) rest := hrest.mono (by omega)
    have hreads := reads_deeperMapping hkeys hvalues hrest true (line + 1) anchors
    rw [State.skip_onLine (continues_entries hdeeper hkeys)] at hreads
    rw [writeValue, List.cons_append, State.skip_line (continues_entries hdeeper hkeys)]
    exact hreads

theorem readsAsItem_mapping {entries : List (String × Block)}
    (hkeys : ∀ entry ∈ entries, isKey entry.1.toList = true)
    (hvalues : ∀ entry ∈ entries, entry.2.ReadsAsValue) : (Block.mapping entries).ReadsAsItem := by
  intro parent rest hrest line anchors
  rw [State.skip_space]
  match entries with
  | [] =>
    have hlt : parent < parent + 1 + 1 := by omega
    exact reads_emptyMapping hrest hlt line true anchors false
  | (key, value) :: entries =>
    rw [itemColumn, state_mapping (hkeys (key, value) List.mem_cons_self)]
    exact reads_deeperMapping hkeys hvalues hrest false line anchors

theorem readsAsValue_text (value : String) : (Block.text value).ReadsAsValue := by
  intro parent rest hrest hstops column hcolumn line anchors
  rw [writeValue, List.cons_append, State.skip_space, skip_scalar]
  simpa [node] using
    reads_scalar hrest line false anchors (Nat.lt_succ_of_le hcolumn) value.toList true

theorem readsAsItem_text (value : String) : (Block.text value).ReadsAsItem := by
  intro parent rest hrest line anchors
  rw [State.skip_space, write, itemColumn, skip_scalar]
  simpa [node] using
    reads_scalar hrest line true anchors (show parent < parent + 1 + 1 by omega) value.toList false

/-- **Every block with words for keys is read back**, wherever it stands. -/
theorem HasKeys.reads {block : Block} (h : block.HasKeys) :
    block.ReadsAsValue ∧ block.ReadsAsItem := by
  induction h with
  | text value => exact ⟨readsAsValue_text value, readsAsItem_text value⟩
  | @sequence items _ ih =>
    have hitems : ∀ item ∈ items, item.ReadsAsItem := by
      intro item hitem
      exact (ih item hitem).2
    exact ⟨readsAsValue_sequence hitems, readsAsItem_sequence hitems⟩
  | @mapping entries hkeys _ ih =>
    have hvalues : ∀ entry ∈ entries, entry.2.ReadsAsValue := by
      intro entry hentry
      exact (ih entry hentry).1
    exact ⟨readsAsValue_mapping hkeys hvalues, readsAsItem_mapping hkeys hvalues⟩

end Block

end NetLab.Yaml
