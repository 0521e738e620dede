import NetLab.Proofs.Yaml.Blocks

/-!
# What a reader takes scalars for

A scalar between quotes, or in a block, is a text.  What an unquoted one is depends on the types
that the reader knows: `retypes` holds for the unquoted texts that it takes for something else.  To
such a reader a node is a block (`Node.block?`) if all of its scalars are texts.

The writer quotes the texts that read as null, truth values or numbers in its own eyes
(`readsAsOther`).  YAML 1.1 knows more types than that: `isTyped` holds for all unquoted texts that
its types are written as.
-/

namespace NetLab.Yaml

/-! ## Nodes as blocks -/

section Reader

variable (retypes : List Char → Bool)

namespace Node

mutual

/-- The texts of a node in their sequences and mappings, if it consists of such. -/
def block? : Node → Option Block
  | .scalar text plain tag =>
    if tag.isSome || (plain && retypes text.toList) then none else some (.text text)
  | .sequence items => (blocks? items).map .sequence
  | .mapping entries => (entries? entries).map .mapping
  | .alias _ => none

def blocks? : List Node → Option (List Block)
  | [] => some []
  | item :: rest =>
    match item.block?, blocks? rest with
    | some item, some rest => some (item :: rest)
    | _, _ => none

def entries? : List (Node × Node) → Option (List (String × Block))
  | [] => some []
  | (key, value) :: rest =>
    match key.block?, value.block?, entries? rest with
    | some (.text key), some value, some rest => some ((key, value) :: rest)
    | _, _, _ => none

end

end Node

namespace Block

/-- No text of the block that is written as it is, and no key, is taken for something else. -/
inductive Kept : Block → Prop where
  | text {value : String} (h : isUnquoted value.toList = true → retypes value.toList = false) :
      Kept (.text value)
  | sequence {items : List Block} (hitems : ∀ item ∈ items, Kept item) : Kept (.sequence items)
  | mapping {entries : List (String × Block)}
      (hkeys : ∀ entry ∈ entries, retypes entry.1.toList = false)
      (hvalues : ∀ entry ∈ entries, Kept entry.2) : Kept (.mapping entries)

theorem kept_text_iff (value : String) : (Block.text value).Kept retypes ↔
    (isUnquoted value.toList = true → retypes value.toList = false) := by
  constructor
  · intro h
    cases h with
    | text h => exact h
  · exact Kept.text

theorem kept_sequence_iff (items : List Block) :
    (Block.sequence items).Kept retypes ↔ ∀ item ∈ items, item.Kept retypes := by
  constructor
  · intro h
    cases h with
    | sequence hitems => exact hitems
  · exact Kept.sequence

theorem kept_mapping_iff (entries : List (String × Block)) :
    (Block.mapping entries).Kept retypes ↔
      (∀ entry ∈ entries, retypes entry.1.toList = false) ∧
        ∀ entry ∈ entries, entry.2.Kept retypes := by
  constructor
  · intro h
    cases h with
    | mapping hkeys hvalues => exact ⟨hkeys, hvalues⟩
  · intro h
    exact Kept.mapping h.1 h.2

mutual

/-- A reader gets nothing else back than what was written. -/
theorem eq_of_block?_node {other : Block} : (block : Block) →
    block.node.block? retypes = some other → other = block
  | .text value => by
    intro h
    rw [node, Node.block?, Option.ite_none_left_eq_some, Option.some.injEq] at h
    exact h.2.symm
  | .sequence items => by
    intro h
    rw [node, Node.block?, Option.map_eq_some_iff] at h
    obtain ⟨others, hothers, rfl⟩ := h
    rw [eq_of_blocks?_nodes items hothers]
  | .mapping entries => by
    intro h
    rw [node, Node.block?, Option.map_eq_some_iff] at h
    obtain ⟨others, hothers, rfl⟩ := h
    rw [eq_of_entries?_entryNodes entries hothers]

theorem eq_of_blocks?_nodes {others : List Block} : (items : List Block) →
    Node.blocks? retypes (nodes items) = some others → others = items
  | [] => by simp [nodes, Node.blocks?]
  | item :: items => by
    intro h
    rw [nodes, Node.blocks?] at h
    cases hitem : item.node.block? retypes with
    | none => simp [hitem] at h
    | some first =>
      cases hitems : Node.blocks? retypes (nodes items) with
      | none => simp [hitems] at h
      | some more =>
        rw [hitem, hitems] at h
        rw [← Option.some.inj h, eq_of_block?_node item hitem, eq_of_blocks?_nodes items hitems]

theorem eq_of_entries?_entryNodes {others : List (String × Block)} :
    (entries : List (String × Block)) →
    Node.entries? retypes (entryNodes entries) = some others → others = entries
  | [] => by simp [entryNodes, Node.entries?]
  | (key, value) :: entries => by
    intro h
    rw [entryNodes, Node.entries?, Node.block?] at h
    cases hkey : retypes key.toList with
    | true => simp [hkey] at h
    | false =>
      cases hvalue : value.node.block? retypes with
      | none => simp [hvalue] at h
      | some first =>
        cases hentries : Node.entries? retypes (entryNodes entries) with
        | none => simp [hentries] at h
        | some more =>
          rw [hkey, hvalue, hentries] at h
          rw [← Option.some.inj h, eq_of_block?_node value hvalue,
            eq_of_entries?_entryNodes entries hentries]

end

mutual

/-- **A reader gets back what was written** exactly if it takes no text for something else. -/
theorem block?_node_iff : (block : Block) →
    (block.node.block? retypes = some block ↔ block.Kept retypes)
  | .text value => by
    rw [kept_text_iff, node, Node.block?]
    cases hunquoted : isUnquoted value.toList <;> cases htyped : retypes value.toList <;> simp
  | .sequence items => by
    rw [kept_sequence_iff, node, Node.block?, ← blocks?_nodes_iff items]
    simp
  | .mapping entries => by
    rw [kept_mapping_iff, node, Node.block?, ← entries?_entryNodes_iff entries]
    simp

theorem blocks?_nodes_iff : (items : List Block) →
    (Node.blocks? retypes (nodes items) = some items ↔ ∀ item ∈ items, item.Kept retypes)
  | [] => by simp [nodes, Node.blocks?]
  | item :: items => by
    rw [nodes, Node.blocks?, List.forall_mem_cons, ← block?_node_iff item,
      ← blocks?_nodes_iff items]
    cases item.node.block? retypes <;> cases Node.blocks? retypes (nodes items) <;> simp

theorem entries?_entryNodes_iff : (entries : List (String × Block)) →
    (Node.entries? retypes (entryNodes entries) = some entries ↔
      (∀ entry ∈ entries, retypes entry.1.toList = false) ∧
        ∀ entry ∈ entries, entry.2.Kept retypes)
  | [] => by simp [entryNodes, Node.entries?]
  | (key, value) :: entries => by
    rw [entryNodes, Node.entries?, List.forall_mem_cons, List.forall_mem_cons, and_and_and_comm,
      ← block?_node_iff value, ← entries?_entryNodes_iff entries, Node.block?]
    cases hkey : retypes key.toList <;> cases value.node.block? retypes <;>
      cases Node.entries? retypes (entryNodes entries) <;> simp

end

end Block

end Reader

/-! ## The types of YAML 1.1 -/

namespace Typed

/-- The words for truth values. -/
def isTruth (text : List Char) : Bool :=
  ["y", "Y", "yes", "Yes", "YES", "n", "N", "no", "No", "NO", "true", "True", "TRUE", "false",
    "False", "FALSE", "on", "On", "ON", "off", "Off", "OFF"].any fun word => text = word.toList

/-- Digits, and underscores after the first of them. -/
def isRow (text : List Char) : Bool :=
  (text.head?.map Char.isDigit).getD false && text.all fun c => c.isDigit || c = '_'

/-- Digits of a base and underscores. -/
def isInBase (base : Nat) (text : List Char) : Bool :=
  !text.isEmpty && text.all fun c => (Text.digitValue? base c).isSome || c = '_'

/-- A number below sixty. -/
def isSixtieth : List Char → Bool
  | [d] => d.isDigit
  | [t, d] => '0' ≤ t && t ≤ '5' && d.isDigit
  | _ => false

/-- A number in base ten, or in base sixty with colons between its digits. -/
def isWhole (text : List Char) : Bool :=
  match text.splitOn ':' with
  | first :: more => isRow first && more.all isSixtieth
  | [] => false

def isInteger (text : List Char) : Bool :=
  match (unsigned text).2 with
  | ['0'] => true
  | '0' :: 'b' :: digits => isInBase 2 digits
  | '0' :: 'x' :: digits => isInBase 16 digits
  | '0' :: digits => isInBase 8 digits
  | digits => isWhole digits

def isExponent : List Char → Bool
  | [] => true
  | e :: sign :: digits =>
    (e = 'e' || e = 'E') && (sign = '-' || sign = '+') && !digits.isEmpty && digits.all Char.isDigit
  | _ => false

/-- A number with a point; one in base sixty has no exponent. -/
def isFloat (text : List Char) : Bool :=
  isSpecialFloat text ||
    let digits := (unsigned text).2
    let whole := digits.takeWhile (· ≠ '.')
    match digits.dropWhile (· ≠ '.') with
    | '.' :: rest =>
      let isFraction (c : Char) : Bool := c.isDigit || c = '_'
      let exponent := rest.dropWhile isFraction
      if whole.contains ':' then isWhole whole && exponent.isEmpty
      else
        (isRow whole || (whole.isEmpty && isRow (rest.takeWhile isFraction))) && isExponent exponent
    | _ => false

/-- What follows a number of at least and at most so many digits. -/
def afterNumber? (least most : Nat) (text : List Char) : Option (List Char) :=
  let digits := text.takeWhile Char.isDigit
  if least ≤ digits.length ∧ digits.length ≤ most then some (text.drop digits.length) else none

/-- What follows a mark. -/
def after? (mark : Char) : List Char → Option (List Char)
  | c :: rest => if c = mark then some rest else none
  | [] => none

/-- What follows a date whose month and day have at least so many digits. -/
def afterDate? (least : Nat) (text : List Char) : Option (List Char) := do
  let text ← after? '-' (← afterNumber? 4 4 text)
  let text ← after? '-' (← afterNumber? least 2 text)
  afterNumber? least 2 text

/-- What follows the hours, minutes, seconds and parts of a second of a time. -/
def afterTime? (text : List Char) : Option (List Char) := do
  let text ← after? ':' (← afterNumber? 1 2 text)
  let text ← after? ':' (← afterNumber? 2 2 text)
  let text ← afterNumber? 2 2 text
  match text with
  | '.' :: rest => some (rest.dropWhile Char.isDigit)
  | rest => some rest

/-- A time zone, or nothing. -/
def isZone (text : List Char) : Bool :=
  match text.dropWhile isSpace with
  | [] => text.isEmpty
  | ['Z'] => true
  | sign :: rest =>
    (sign = '-' || sign = '+') &&
      match afterNumber? 1 2 rest with
      | some [] => true
      | some (':' :: minutes) => afterNumber? 2 2 minutes = some []
      | _ => false

/-- A date, or a date and a time. -/
def isTimestamp (text : List Char) : Bool :=
  afterDate? 2 text = some [] ||
    match afterDate? 1 text with
    | some (c :: rest) =>
      if c = 'T' || c = 't' then ((afterTime? rest).map isZone).getD false
      else isSpace c && ((afterTime? (rest.dropWhile isSpace)).map isZone).getD false
    | _ => false

end Typed

/-- Unquoted, the text is no text to a reader of YAML 1.1: it is null, a truth value, a number, a
time, or one of the two marks for keys. -/
def isTyped (text : List Char) : Bool :=
  text.isEmpty || isNullWord text || Typed.isTruth text || Typed.isInteger text ||
    Typed.isFloat text || Typed.isTimestamp text || text = ['<', '<'] || text = ['=']

example : ["no", "017", "1_000", "12:30", "1.5e+3", "2024-01-02", "2024-1-2 3:04:05 +1"].all
    (fun word => isTyped word.toList) := by decide +kernel

example : ["nope", "0o17", "1.2.3", "12:60", "2024-1-2"].all
    (fun word => !isTyped word.toList) := by
  decide +kernel

end NetLab.Yaml
