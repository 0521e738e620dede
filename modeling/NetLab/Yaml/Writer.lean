import NetLab.Json.Printer
import NetLab.Yaml.Chars
import NetLab.Yaml.Resolution

/-!
# Writing YAML

`Block.write` writes mappings and sequences in block style: two spaces of indentation for a mapping
inside a mapping, the dashes of a sequence at the column of the key it belongs to, lines of any
length.

A text is written in the first style that can hold it (`scalar`):

* a text with a line feed as a literal block, unless a line would end in a space or a character
  does not print;
* any other text as it is, unless it would read as something else (`readsAsOther`) or runs into
  the syntax (`isPlain`);
* then between single quotes, unless a character does not print;
* then between double quotes.
-/

namespace NetLab.Yaml

/-! ## What a text allows -/

/-- A mark that has a meaning where it stands: `before` is blank or the beginning, and `rest`
follows. -/
def isMarkAt (first blankBefore : Bool) (c : Char) (rest : List Char) : Bool :=
  (c = ':' && blankAhead rest) ||
    if first then isIndicator c || ((c = '?' || c = '-') && blankAhead rest)
    else c = '#' && blankBefore

/-- Some mark of the text has a meaning where it stands. -/
def hasMark (first blankBefore : Bool) : List Char → Bool
  | [] => false
  | c :: rest => isMarkAt first blankBefore c rest || hasMark false (isSpace c || isBreak c) rest

/-- Two neighbours of the text pass the test. -/
def hasPair (test : Char → Char → Bool) : List Char → Bool
  | a :: b :: rest => test a b || hasPair test (b :: rest)
  | _ => false

/-- A space stands directly before a line break. -/
def hasSpaceBreak (text : List Char) : Bool := hasPair (fun a b => a = ' ' && isBreak b) text

/-- A space stands directly after a line break. -/
def hasBreakSpace (text : List Char) : Bool := hasPair (fun a b => isBreak a && b = ' ') text

/-- Each character prints, and no line ends in a space before its break. -/
def isClean (text : List Char) : Bool := text.all isPrintable && !hasSpaceBreak text

/-- The text begins with the mark of a document. -/
def beginsDocument (text : List Char) : Bool :=
  ['-', '-', '-'].isPrefixOf text || ['.', '.', '.'].isPrefixOf text

/-- The text, unquoted, has no part that belongs to the syntax. -/
def isPlain (text : List Char) : Bool :=
  isClean text && !text.any isBreak && text.head? != some ' ' && text.getLast? != some ' ' &&
    !beginsDocument text && !hasMark true true text

/-- The text can be written between single quotes. -/
def isSingleQuotable (text : List Char) : Bool := isClean text && !hasBreakSpace text

/-- The text can be written as a literal block. -/
def isLiteral (text : List Char) : Bool := isClean text && text.getLast? != some ' '

/-! ## The styles -/

/-- The columns before a line. -/
def indentation (indent : Nat) : List Char := List.replicate indent ' '

/-- The text with the indentation put before each run of characters that follows a line break;
`fresh` at the beginning of a line. -/
def indented (indent : Nat) (fresh : Bool) : List Char → List Char
  | [] => []
  | c :: rest =>
    if isBreak c then c :: indented indent true rest
    else (if fresh then indentation indent else []) ++ c :: indented indent false rest

/-- The digit for the indentation in the head of a literal block: it is needed where the text
begins with a space or a line break. -/
def indentHint (text : List Char) : List Char :=
  match text with
  | c :: _ => if c = ' ' || isBreak c then ['2'] else []
  | [] => []

/-- The sign for the line breaks at the end of a literal block: a minus for none, nothing for
one, and a plus for more or for a text that is nothing but one. -/
def chompHint (text : List Char) : List Char :=
  match text.reverse with
  | last :: before :: _ => if !isBreak last then ['-'] else if isBreak before then ['+'] else []
  | [last] => if isBreak last then ['+'] else ['-']
  | [] => ['-']

/-- A literal block whose lines stand at the given column. -/
def literal (indent : Nat) (text : List Char) : List Char :=
  '|' :: indentHint text ++ chompHint text ++ '\n' :: indented indent true text

/-- The characters between single quotes.  A line feed is a fold when alone, so it is written
twice; the other breaks stand for themselves. -/
def singleQuotedBody (indent : Nat) (afterBreak : Bool) : List Char → List Char
  | [] => if afterBreak then indentation indent else []
  | c :: rest =>
    if isBreak c then
      (if c = '\n' && !afterBreak then ['\n'] else []) ++ c :: singleQuotedBody indent true rest
    else
      (if afterBreak then indentation indent else []) ++
        (if c = '\'' then ['\'', '\''] else [c]) ++ singleQuotedBody indent false rest

/-- The text between single quotes; lines after a break stand at the given column. -/
def singleQuoted (indent : Nat) (text : List Char) : List Char :=
  '\'' :: singleQuotedBody indent false text ++ ['\'']

/-- The digits of a number in base sixteen, in upper case, at least `width` of them. -/
def hexPadded (width value : Nat) : List Char :=
  let digits := (Nat.toDigits 16 value).map Char.toUpper
  List.replicate (width - digits.length) '0' ++ digits

/-- The letter of a one-letter escape. -/
def escapeLetter? (c : Char) : Option Char :=
  match c with
  | '\x00' => some '0'
  | '\x07' => some 'a'
  | '\x08' => some 'b'
  | '\t' => some 't'
  | '\n' => some 'n'
  | '\x0b' => some 'v'
  | '\x0c' => some 'f'
  | '\r' => some 'r'
  | '\x1b' => some 'e'
  | '"' => some '"'
  | '\\' => some '\\'
  | '\u0085' => some 'N'
  | '\u2028' => some 'L'
  | '\u2029' => some 'P'
  | _ => none

/-- A character between double quotes. -/
def doubleQuotedChar (c : Char) : List Char :=
  match escapeLetter? c with
  | some letter => ['\\', letter]
  | none =>
    if isPrintable c then [c]
    else if c.toNat < 0x100 then '\\' :: 'x' :: hexPadded 2 c.toNat
    else '\\' :: 'u' :: hexPadded 4 c.toNat

/-- The text between double quotes. -/
def doubleQuoted (text : List Char) : List Char :=
  '"' :: text.flatMap doubleQuotedChar ++ ['"']

/-- A text in the first style that can hold it; lines after the first stand at the given
column. -/
def scalar (indent : Nat) (text : List Char) : List Char :=
  if text.contains '\n' then
    if isLiteral text then literal indent text else doubleQuoted text
  else if !readsAsOther text && isPlain text then text
  else if isSingleQuotable text then singleQuoted indent text
  else doubleQuoted text

/-! ## Collections -/

/-- What is written: texts in sequences and mappings.  Keys are written as they are. -/
inductive Block where
  | text (value : String)
  | sequence (items : List Block)
  | mapping (entries : List (String × Block))

/-- The characters with a line feed at the end, unless they have one. -/
def endLine (text : List Char) : List Char :=
  if (text.getLast?.map isBreak).getD false then text else text ++ ['\n']

namespace Block

mutual

/-- The lines of a block whose first line begins where the writer stands and whose further lines
begin at the given column. -/
def write (indent : Nat) : Block → List Char
  | .text value => endLine (scalar (indent + 2) value.toList)
  | .sequence [] => ['[', ']', '\n']
  | .sequence (item :: rest) => '-' :: ' ' :: write (itemColumn indent item) item ++
      writeItems indent rest
  | .mapping [] => ['\x7b', '\x7d', '\n']
  | .mapping ((key, value) :: rest) => key.toList ++ ':' :: writeValue indent value ++
      writeEntries indent rest

/-- The items of a sequence, each on lines of its own. -/
def writeItems (indent : Nat) : List Block → List Char
  | [] => []
  | item :: rest =>
    indentation indent ++ '-' :: ' ' :: write (itemColumn indent item) item ++
      writeItems indent rest

/-- The entries of a mapping, each on lines of its own. -/
def writeEntries (indent : Nat) : List (String × Block) → List Char
  | [] => []
  | (key, value) :: rest =>
    indentation indent ++ key.toList ++ ':' :: writeValue indent value ++
      writeEntries indent rest

/-- What follows the colon after a key at the given column. -/
def writeValue (indent : Nat) : Block → List Char
  | .text value => ' ' :: endLine (scalar (indent + 2) value.toList)
  | .sequence [] => [' ', '[', ']', '\n']
  | .sequence (item :: rest) => '\n' :: writeItems indent (item :: rest)
  | .mapping [] => [' ', '\x7b', '\x7d', '\n']
  | .mapping (entry :: rest) => '\n' :: writeEntries (indent + 2) (entry :: rest)

/-- The column of the further lines of an item: a text is indented from the dash by itself. -/
def itemColumn (indent : Nat) : Block → Nat
  | .text _ => indent
  | .sequence _ => indent + 2
  | .mapping _ => indent + 2

end

end Block

end NetLab.Yaml
