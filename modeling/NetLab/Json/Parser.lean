import NetLab.Json.Basic
import NetLab.Text.Basic

/-!
# Reading JSON text

`Json.parse?` reads one JSON text in full: blanks around it are allowed, anything else after it is
not.  Of two members with one name the later counts, a surrogate in an escape must belong to a
pair, control characters stand only in escapes, and nesting is limited to `maxDepth` levels.

Each reader returns what it did not consume.  A reader calls another for a value that is nested less
deep, or for a shorter rest.
-/

namespace NetLab.Json

/-- The number of levels that values may be nested. -/
def maxDepth : Nat := 127

/-- The blanks of JSON. -/
def isBlank (c : Char) : Bool := c = ' ' || c = '\t' || c = '\n' || c = '\r'

/-- The text without its leading blanks. -/
def skipBlanks (text : List Char) : List Char := text.dropWhile isBlank

/-- The character that stands for itself or is named by a one-letter escape. -/
def shortEscape? : Char → Option Char
  | '"' => some '"'
  | '\\' => some '\\'
  | '/' => some '/'
  | 'b' => some '\x08'
  | 'f' => some '\x0c'
  | 'n' => some '\n'
  | 'r' => some '\r'
  | 't' => some '\t'
  | _ => none

/-- Reads the characters of a string up to its closing quote, onto the reversed `read`. -/
def scanString (read : List Char) : List Char → Option (List Char × List Char)
  | [] => none
  | '"' :: rest => some (read.reverse, rest)
  | '\\' :: 'u' :: a :: b :: c :: d :: rest =>
    match Text.valueOf? 16 [a, b, c, d] with
    | none => none
    | some unit =>
      if 0xDC00 ≤ unit ∧ unit < 0xE000 then none
      else if 0xD800 ≤ unit ∧ unit < 0xDC00 then
        match rest with
        | '\\' :: 'u' :: e :: f :: g :: h :: rest' =>
          match Text.valueOf? 16 [e, f, g, h] with
          | none => none
          | some low =>
            if 0xDC00 ≤ low ∧ low < 0xE000 then
              scanString (Char.ofNat (0x10000 + (unit - 0xD800) * 0x400 + (low - 0xDC00)) :: read)
                rest'
            else none
        | _ => none
      else scanString (Char.ofNat unit :: read) rest
  | '\\' :: c :: rest =>
    match shortEscape? c with
    | none => none
    | some c => scanString (c :: read) rest
  | c :: rest => if c.toNat < 0x20 ∨ c = '\\' then none else scanString (c :: read) rest

/-- The leading decimal digits, and the rest. -/
def spanDigits (text : List Char) : List Char × List Char :=
  (text.takeWhile Char.isDigit, text.dropWhile Char.isDigit)

/-- The digits after a decimal point, and the rest; `none` for a point without digits. -/
def scanFraction? : List Char → Option (List Char × List Char)
  | '.' :: rest =>
    let (digits, rest) := spanDigits rest
    if digits.isEmpty then none else some (digits, rest)
  | rest => some ([], rest)

/-- The exponent, if there is one, and the rest; `none` for an exponent without digits. -/
def scanExponent? : List Char → Option (Option Int × List Char)
  | e :: rest =>
    if e = 'e' ∨ e = 'E' then
      let (negative, rest) := match rest with
        | '-' :: rest => (true, rest)
        | '+' :: rest => (false, rest)
        | rest => (false, rest)
      let (digits, rest) := spanDigits rest
      if digits.isEmpty then none
      else
        let value : Int := Text.valueOf 10 digits
        some (some (if negative then -value else value), rest)
    else some (none, e :: rest)
  | [] => some (none, [])

/-- The number of a literal: an integer where it has neither point nor exponent and fits 64 bits,
else the nearest double.  Minus zero is a double. -/
def literal? (negative : Bool) (whole fraction : List Char) (exponent : Option Int) :
    Option Number :=
  let value := Text.valueOf 10 whole
  if fraction.isEmpty ∧ exponent.isNone ∧
      (if negative then 0 < value ∧ value ≤ Nat.pow 2 63 else value < Nat.pow 2 64) then
    some (.int (if negative then -value else value))
  else
    (Double.ofDecimal? negative (Text.valueOf 10 (whole ++ fraction))
      (exponent.getD 0 - fraction.length)).map .double

/-- Reads the part of a number after its sign. -/
def scanNumber (negative : Bool) (text : List Char) : Option (Number × List Char) :=
  let (whole, rest) := spanDigits text
  if whole.isEmpty ∨ (1 < whole.length ∧ whole.head? = some '0') then none
  else
    match scanFraction? rest with
    | none => none
    | some (fraction, rest) =>
      match scanExponent? rest with
      | none => none
      | some (exponent, rest) =>
        (literal? negative whole fraction exponent).map fun number => (number, rest)

/-- Reads the rest of a word that stands for a value. -/
def scanWord (word : List Char) (value : Json) (text : List Char) : Option (Json × List Char) :=
  if word.isPrefixOf text then some (value, text.drop word.length) else none

mutual

/-- Reads a value that may be nested `depth` levels. -/
def scanValue (depth : Nat) (text : List Char) : Option (Json × List Char) :=
  match skipBlanks text with
  | [] => none
  | c :: after =>
    match c with
    | '"' => (scanString [] after).map fun (chars, rest) => (.string (String.ofList chars), rest)
    | '[' =>
      match depth with
      | 0 => none
      | depth + 1 => (scanItems depth true [] after).map fun (items, rest) => (.array items, rest)
    | '\x7b' =>
      match depth with
      | 0 => none
      | depth + 1 =>
        (scanMembers depth true [] after).map fun (members, rest) => (.object members, rest)
    | '-' => (scanNumber true after).map fun (value, rest) => (.number value, rest)
    | 't' => scanWord ['r', 'u', 'e'] (.bool true) after
    | 'f' => scanWord ['a', 'l', 's', 'e'] (.bool false) after
    | 'n' => scanWord ['u', 'l', 'l'] .null after
    | c => (scanNumber false (c :: after)).map fun (value, rest) => (.number value, rest)
termination_by (depth, text.length, 0)

/-- Reads the items of an array up to its closing bracket, after the reversed `read`. -/
def scanItems (depth : Nat) (first : Bool) (read : List Json) (text : List Char) :
    Option (List Json × List Char) :=
  match skipBlanks text with
  | [] => none
  | c :: after =>
    if c = ']' ∧ first then some (read.reverse, after)
    else
      match scanValue depth text with
      | none => none
      | some (item, rest) =>
        match skipBlanks rest with
        | ',' :: next =>
          if next.length < text.length then scanItems depth false (item :: read) next else none
        | ']' :: next => some ((item :: read).reverse, next)
        | _ => none
termination_by (depth, text.length, 1)

/-- Reads the members of an object up to its closing brace, onto those already `read`. -/
def scanMembers (depth : Nat) (first : Bool) (read : List (String × Json)) (text : List Char) :
    Option (List (String × Json) × List Char) :=
  match skipBlanks text with
  | '\x7d' :: after => if first then some (read, after) else none
  | '"' :: after =>
    match scanString [] after with
    | none => none
    | some (name, rest) =>
      match skipBlanks rest with
      | ':' :: valueText =>
        if valueText.length < text.length then
          match scanValue depth valueText with
          | none => none
          | some (value, rest) =>
            let read := Assoc.insert (String.ofList name) value read
            match skipBlanks rest with
            | ',' :: next =>
              if next.length < text.length then scanMembers depth false read next else none
            | '\x7d' :: next => some (read, next)
            | _ => none
        else none
      | _ => none
  | _ => none
termination_by (depth, text.length, 1)

end

/-- The value that a text writes, if it is the whole of it. -/
def parse? (text : String) : Option Json := do
  let (value, rest) ← scanValue maxDepth text.toList
  if (skipBlanks rest).isEmpty then some value else none

end NetLab.Json
