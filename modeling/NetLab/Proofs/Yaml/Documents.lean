import NetLab.Proofs.Yaml.Blocks

/-!
# Documents are read back

All that the writer writes prints, so reading neither rejects a character nor changes a line break
(`normalizeBreaks_eq`), and a text that was written as a mapping holds exactly the node of that
mapping (`parse?_write`).
-/

namespace NetLab.Yaml

/-! ## Characters that print -/

theorem isPrintable_of_isNameChar {c : Char} (h : isNameChar c = true) : isPrintable c = true := by
  delta isNameChar Char.isAlphanum Char.isAlpha Char.isUpper Char.isLower Char.isDigit at h
  simp only [Bool.or_eq_true, Bool.and_eq_true, decide_eq_true_eq, ge_iff_le,
    UInt32.le_iff_toNat_le, Char.toNat_val, show 'A'.toNat = 65 by rfl, show 'Z'.toNat = 90 by rfl,
    show 'a'.toNat = 97 by rfl, show 'z'.toNat = 122 by rfl, show '0'.toNat = 48 by rfl,
    show '9'.toNat = 57 by rfl] at h
  have hrange : 0x20 ≤ c.toNat ∧ c.toNat ≤ 0x7E := by
    rcases h with (((h | h) | h) | rfl) | rfl
    · omega
    · omega
    · omega
    · decide
    · decide
  simp [isPrintable, hrange]

theorem isReadable_of_isPrintable {c : Char} (h : isPrintable c = true) : isReadable c = true := by
  simp only [isPrintable, isReadable, Bool.or_eq_true, Bool.and_eq_true, decide_eq_true_eq] at h ⊢
  omega

/-- Breaks that print are read as they are. -/
theorem normalizeBreaks_eq {text : List Char} (h : ∀ c ∈ text, isPrintable c = true) :
    normalizeBreaks text = text := by
  induction text with
  | nil => rfl
  | cons c text ih =>
    have hc := h c (by simp)
    have hreturn : c ≠ '\r' := ne_of_test hc (by decide)
    have hnext : c ≠ '\u0085' := ne_of_test hc (by decide)
    rw [normalizeBreaks]
    · rw [ih fun d hd => h d (by simp [hd])]
      simp [hreturn, hnext]
    · rintro rest rfl
      exact absurd rfl hreturn

/-! ## What is written prints -/

/-- Each character of the text prints. -/
def Prints (text : List Char) : Prop := ∀ c ∈ text, isPrintable c = true

namespace Prints

variable {text rest : List Char}

theorem append (h : Prints text) (hrest : Prints rest) : Prints (text ++ rest) :=
  List.forall_mem_append.mpr ⟨h, hrest⟩

theorem cons {c : Char} (hc : isPrintable c = true) (h : Prints text) : Prints (c :: text) :=
  List.forall_mem_cons.mpr ⟨hc, h⟩

theorem indentation (count : Nat) : Prints (indentation count) := by
  intro c hc
  rw [List.eq_of_mem_replicate hc]
  rfl

theorem endLine (h : Prints text) : Prints (endLine text) := by
  obtain ⟨more, heq, hfeed⟩ := exists_endLine text
  rw [heq]
  refine h.append fun c hc => ?_
  rw [hfeed c hc]
  rfl

theorem indented (h : Prints text) (indent : Nat) (fresh : Bool) :
    Prints (indented indent fresh text) := by
  induction text generalizing fresh with
  | nil => exact h
  | cons c text ih =>
    have hc := h c List.mem_cons_self
    have htext : Prints text := fun d hd => h d (List.mem_cons_of_mem c hd)
    rw [Yaml.indented]
    split
    · exact (ih htext true).cons hc
    · refine Prints.append ?_ ((ih htext false).cons hc)
      split
      · exact indentation indent
      · exact List.forall_mem_nil _

theorem literal (h : Prints text) (indent : Nat) : Prints (literal indent text) := by
  have hhints : ∀ hint ∈ [['2'], ['-'], ['+'], []], hint.all isPrintable = true := by decide
  have hindent : Prints (indentHint text) := by
    refine List.all_eq_true.mp (hhints _ ?_)
    have hmem := indentHint_mem text
    simp only [List.mem_cons, List.not_mem_nil, or_false] at hmem ⊢
    rcases hmem with h | h <;> simp [h]
  have hchomp : Prints (chompHint text) := by
    refine List.all_eq_true.mp (hhints _ ?_)
    exact List.mem_cons_of_mem _ (chompHint_mem text)
  exact ((hindent.cons rfl).append hchomp).append ((h.indented indent true).cons rfl)

theorem singleQuotedBody (h : Prints text) (indent : Nat) (afterBreak : Bool) :
    Prints (singleQuotedBody indent afterBreak text) := by
  induction text generalizing afterBreak with
  | nil =>
    rw [Yaml.singleQuotedBody]
    split
    · exact indentation indent
    · exact h
  | cons c text ih =>
    have hc := h c List.mem_cons_self
    have htext : Prints text := fun d hd => h d (List.mem_cons_of_mem c hd)
    rw [Yaml.singleQuotedBody]
    split
    · refine Prints.append ?_ ((ih htext true).cons hc)
      split
      · exact cons rfl (List.forall_mem_nil _)
      · exact List.forall_mem_nil _
    · refine Prints.append (Prints.append ?_ ?_) (ih htext false)
      · split
        · exact indentation indent
        · exact List.forall_mem_nil _
      · split
        · exact cons rfl (cons rfl (List.forall_mem_nil _))
        · exact cons hc (List.forall_mem_nil _)

theorem doubleQuoted (text : List Char) : Prints (doubleQuoted text) := by
  have hchar : ∀ c, Prints (doubleQuotedChar c) := by
    intro c
    by_cases hc : c = ' '
    · subst hc
      exact List.all_eq_true.mp (show (doubleQuotedChar ' ').all isPrintable = true by decide)
    · rcases doubleQuotedChar_cases hc with ⟨heq, hprint, -⟩ | ⟨letter, digits, heq, hprints, -⟩
      · rw [heq]
        exact Prints.cons hprint (List.forall_mem_nil _)
      · rw [heq]
        exact Prints.cons rfl (List.all_eq_true.mp hprints)
  refine Prints.append (Prints.cons rfl fun c hc => ?_) (Prints.cons rfl (List.forall_mem_nil _))
  obtain ⟨d, -, hd⟩ := List.mem_flatMap.mp hc
  exact hchar d c hd

theorem scalar (indent : Nat) (text : List Char) : Prints (scalar indent text) := by
  rw [Yaml.scalar]
  split
  · split
    · rename_i hliteral
      simp only [isLiteral, isClean, Bool.and_eq_true, List.all_eq_true] at hliteral
      exact literal hliteral.1.1 indent
    · exact doubleQuoted text
  · split
    · rename_i hplain
      simp only [isPlain, isClean, Bool.and_eq_true, List.all_eq_true] at hplain
      exact hplain.2.1.1.1.1.1.1
    · split
      · rename_i hsingle
        simp only [isSingleQuotable, isClean, Bool.and_eq_true, List.all_eq_true] at hsingle
        have hbody : Prints text := hsingle.1.1
        exact ((hbody.singleQuotedBody indent false).cons rfl).append
          (cons rfl (List.forall_mem_nil _))
      · exact doubleQuoted text

end Prints

namespace Block

theorem prints_key {key : List Char} (h : isKey key = true) : Prints key := by
  obtain ⟨-, -, -, -, hname, -⟩ := exists_cons_of_isKey h
  intro c hc
  exact isPrintable_of_isNameChar (hname c hc)

theorem prints_items {items : List Block} (h : ∀ item ∈ items, ∀ indent, Prints (item.write indent))
    (indent : Nat) : Prints (writeItems indent items) := by
  induction items with
  | nil => exact List.forall_mem_nil _
  | cons item items ih =>
    have hitem := h item List.mem_cons_self (itemColumn indent item)
    have hitems := ih fun item hitem => h item (List.mem_cons_of_mem _ hitem)
    rw [writeItems]
    exact ((Prints.indentation indent).append ((hitem.cons rfl).cons rfl)).append hitems

theorem prints_entries {entries : List (String × Block)}
    (hkeys : ∀ entry ∈ entries, isKey entry.1.toList = true)
    (h : ∀ entry ∈ entries, ∀ indent, Prints (writeValue indent entry.2)) (indent : Nat) :
    Prints (writeEntries indent entries) := by
  induction entries with
  | nil => exact List.forall_mem_nil _
  | cons entry entries ih =>
    obtain ⟨key, value⟩ := entry
    have hkey := prints_key (hkeys (key, value) List.mem_cons_self)
    have hvalue := h (key, value) List.mem_cons_self indent
    have hentries := ih (fun entry hentry => hkeys entry (List.mem_cons_of_mem _ hentry))
      fun entry hentry => h entry (List.mem_cons_of_mem _ hentry)
    rw [writeEntries]
    exact (((Prints.indentation indent).append hkey).append (hvalue.cons rfl)).append hentries

/-- The first line of a collection is indented where the writer stands already. -/
theorem prints_of_indented {indent : Nat} {text : List Char}
    (h : Prints (indentation indent ++ text)) : Prints text :=
  fun c hc => h c (List.mem_append_right _ hc)

/-- **All that is written prints.** -/
theorem HasKeys.prints {block : Block} (h : block.HasKeys) (indent : Nat) :
    Prints (block.write indent) ∧ Prints (writeValue indent block) := by
  induction h generalizing indent with
  | text value =>
    have hscalar := (Prints.scalar (indent + 2) value.toList).endLine
    rw [write, writeValue]
    exact ⟨hscalar, hscalar.cons rfl⟩
  | @sequence items _ ih =>
    have hitems := prints_items fun item hitem indent => (ih item hitem indent).1
    cases items with
    | nil =>
      rw [write, writeValue]
      exact ⟨List.all_eq_true.mp (by decide), List.all_eq_true.mp (by decide)⟩
    | cons item items =>
      refine ⟨@prints_of_indented indent _ ?_, (hitems indent).cons rfl⟩
      have hall := hitems indent
      rw [writeItems] at hall
      rw [write]
      simpa using hall
  | @mapping entries hkeys _ ih =>
    have hentries := prints_entries hkeys fun entry hentry indent => (ih entry hentry indent).2
    cases entries with
    | nil =>
      rw [write, writeValue]
      exact ⟨List.all_eq_true.mp (by decide), List.all_eq_true.mp (by decide)⟩
    | cons entry entries =>
      obtain ⟨key, value⟩ := entry
      refine ⟨@prints_of_indented indent _ ?_, (hentries (indent + 2)).cons rfl⟩
      have hall := hentries indent
      rw [writeEntries] at hall
      rw [write]
      simpa using hall

/-! ## Documents -/

/-- A key begins a document without dashes. -/
theorem beginDocument_of_key {key : String} (hkey : isKey key.toList = true) (value : Block)
    (entries : List (String × Block)) :
    beginDocument (.onLine 0 (writeEntries 0 ((key, value) :: entries) ++ []) []) =
        some (.onLine 0 (writeEntries 0 ((key, value) :: entries) ++ []) [], false) ∧
      (State.onLine 0 (writeEntries 0 ((key, value) :: entries) ++ []) []).place.atEnd = false := by
  obtain ⟨c, more, hcons, halpha, -⟩ := exists_cons_of_isKey hkey
  have hpercent : c ≠ '%' := ne_of_test halpha (by decide)
  have hdash : c ≠ '-' := ne_of_test halpha (by decide)
  simp only [State.onLine, onLine_entries 0 0 hkey, hcons, List.cons_append]
  refine ⟨?_, Place.atEnd_of_isAlpha halpha _ 0 0⟩
  simp [beginDocument, State.column, State.head?, hpercent, Place.atMark_of_ne hdash]

/-- **A document that was written as a mapping holds that mapping**, and nothing else. -/
theorem parse?_write {key : String} {value : Block} {entries : List (String × Block)}
    (h : (Block.mapping ((key, value) :: entries)).HasKeys) :
    parse? (String.ofList ((Block.mapping ((key, value) :: entries)).write 0)) =
      some ⟨[], (Block.mapping ((key, value) :: entries)).node⟩ := by
  have hprints := (h.prints 0).1
  cases h with
  | mapping hkeys hvalues =>
    have hkey : isKey key.toList = true := hkeys (key, value) List.mem_cons_self
    have hnil : Continues 0 [] := Continues.nil 0
    obtain ⟨last, hentries⟩ := readMapping_entries hkeys
      (fun entry hentry => (hvalues entry hentry).reads.1) hnil (Or.inl rfl) [] 0 []
    obtain ⟨after, line, hread, hskip⟩ :=
      @reads_mapping 0 0 0 last false [] [] hnil key hkey value entries (by simpa using hentries)
    have hstart : State.skip false
        ⟨.start ((Block.mapping ((key, value) :: entries)).write 0), true, []⟩ =
        State.onLine 0 (writeEntries 0 ((key, value) :: entries) ++ []) [] := by
      have hstate := state_mapping hkey 0 0 value entries [] []
      rw [List.append_nil] at hstate
      rw [Place.start, hstate]
      exact State.skip_onLine (continues_entries hnil hkeys) 0 []
    have hall : ((Block.mapping ((key, value) :: entries)).write 0).all isReadable = true := by
      rw [List.all_eq_true]
      exact fun c hc => isReadable_of_isPrintable (hprints c hc)
    simp only [parse?, String.toList_ofList, normalizeBreaks_eq hprints, hall, hstart]
    obtain ⟨hbegin, hend⟩ := beginDocument_of_key hkey value entries
    have hanchors : after.anchors = [] := congrArg State.anchors hskip
    have hdone : endsDocument (State.onLine line [] []) = true := by
      rw [endsDocument]
      rfl
    generalize State.onLine 0 (writeEntries 0 ((key, value) :: entries) ++ []) [] = s
      at hread hbegin hend ⊢
    simp [hbegin, hend, hread, hskip, hdone, hanchors, node]

end Block

end NetLab.Yaml
