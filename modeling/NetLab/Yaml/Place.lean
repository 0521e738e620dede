import NetLab.Yaml.Chars

/-!
# Places in a text

A `Place` is what is left of a text together with the column and the line at which it begins.  A
text is read with its line breaks normalized, so a line break is one character.
-/

namespace NetLab.Yaml

/-- A place in a text. -/
structure Place where
  rest : List Char
  column : Nat
  line : Nat
deriving DecidableEq

namespace Place

/-- The beginning of a text. -/
def start (text : List Char) : Place := ⟨text, 0, 0⟩

/-- The place after the next character. -/
def next (s : Place) : Place :=
  match s.rest with
  | [] => s
  | c :: rest => if isBreak c then ⟨rest, 0, s.line + 1⟩ else ⟨rest, s.column + 1, s.line⟩

/-- The place further on in the same line. -/
def ahead (count : Nat) (s : Place) : Place :=
  ⟨s.rest.drop count, s.column + count, s.line⟩

/-- The place after the characters that pass the test, in the same line. -/
def afterWhile (test : Char → Bool) (s : Place) : Place :=
  s.ahead (s.rest.takeWhile test).length

/-- The mark of a document begins a line here: three dashes or three dots, and then a blank. -/
def atMark (mark : Char) (s : Place) : Bool :=
  s.column = 0 &&
    match s.rest with
    | a :: b :: c :: rest => a = mark && b = mark && c = mark && blankAhead rest
    | _ => false

/-- The document ends here. -/
def atEnd (s : Place) : Bool := s.rest.isEmpty || s.atMark '-' || s.atMark '.'

/-- An indicator of the block style is next: the character, and then a blank. -/
def atIndicator (mark : Char) (s : Place) : Bool :=
  match s.rest with
  | c :: rest => c = mark && blankAhead rest
  | [] => false

end Place

end NetLab.Yaml
