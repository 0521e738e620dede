import NetLab.Json.Double
import NetLab.Text.Basic

/-!
# What unquoted scalars read as

An unquoted text may read as null, a truth value or a number.  The writer quotes every text for
which `readsAsOther` holds; the reader asks `isNullWord` where a value is optional.
-/

namespace NetLab.Yaml

/-- The words for null. -/
def isNullWord (text : List Char) : Bool :=
  text = ['~'] || text = ['n', 'u', 'l', 'l'] || text = ['N', 'u', 'l', 'l'] ||
    text = ['N', 'U', 'L', 'L']

/-- The words for truth values. -/
def isBoolWord (text : List Char) : Bool :=
  ["true", "True", "TRUE", "false", "False", "FALSE"].any fun word => text = word.toList

/-- The text after a leading sign, and whether the sign is a minus. -/
def unsigned : List Char → Bool × List Char
  | '-' :: rest => (true, rest)
  | '+' :: rest => (false, rest)
  | text => (false, text)

/-- Digits after a needless zero: such a text is no number. -/
def isZeroPadded (text : List Char) : Bool :=
  match (unsigned text).2 with
  | '0' :: c :: rest => (c :: rest).all Char.isDigit
  | _ => false

/-- The magnitude of an integer and its sign, in base ten or after a mark for another base. -/
def integer? (text : List Char) : Option (Bool × Nat) :=
  let (negative, digits) := unsigned text
  let magnitude := match digits with
    | '0' :: 'x' :: rest => Text.valueOf? 16 rest
    | '0' :: 'o' :: rest => Text.valueOf? 8 rest
    | '0' :: 'b' :: rest => Text.valueOf? 2 rest
    | digits => if isZeroPadded text then none else Text.valueOf? 10 digits
  magnitude.map fun value => (negative, value)

/-- The text is an integer of 128 bits, signed or not. -/
def isInteger (text : List Char) : Bool :=
  match integer? text with
  | some (true, value) => value ≤ Nat.pow 2 127
  | some (false, value) => value < Nat.pow 2 128
  | none => false

/-- The digits and the power of ten of a decimal text without sign, if it is one. -/
def decimal? (text : List Char) : Option (Nat × Int) := do
  let whole := text.takeWhile Char.isDigit
  let (fraction, rest) := match text.dropWhile Char.isDigit with
    | '.' :: rest => (rest.takeWhile Char.isDigit, rest.dropWhile Char.isDigit)
    | rest => ([], rest)
  let digits ← Text.valueOf? 10 (whole ++ fraction)
  let exponent ← match rest with
    | [] => some 0
    | e :: rest =>
      if e = 'e' ∨ e = 'E' then
        let (negative, digits) := unsigned rest
        (Text.valueOf? 10 digits).map fun value => if negative then -(value : Int) else value
      else none
  return (digits, exponent - fraction.length)

/-- The words for infinities and for what is no number. -/
def isSpecialFloat (text : List Char) : Bool :=
  ([".inf", ".Inf", ".INF"].any fun word => (unsigned text).2 = word.toList) ||
    [".nan", ".NaN", ".NAN"].any fun word => text = word.toList

/-- The text is a number with a finite double, or a word for a special one. -/
def isFloat (text : List Char) : Bool :=
  isSpecialFloat text ||
    match decimal? (unsigned text).2 with
    | some (digits, exponent) => (Double.ofDecimal? false digits exponent).isSome
    | none => false

/-- Unquoted, the text would read as something else than itself, or as it would to some
reader: null, a truth value, a number, or digits after a needless zero. -/
def readsAsOther (text : List Char) : Bool :=
  text.isEmpty || isNullWord text || isBoolWord text || isInteger text || isZeroPadded text ||
    isFloat text

end NetLab.Yaml
