import NetLab.Text.Invisible

/-!
# Texts written for others

Texts quoted for messages, so that a reader sees each of their characters, and texts encoded as the
values of a query.
-/

namespace NetLab.Text

/-! ## Quoted texts

A quoted text stands between double quotes, with a backslash before a quote or a backslash,
`\0 \t \r \n` for these four, and the code point in braces for any other character that does not
print by itself. -/

/-- The digits of a number in base sixteen, in lower case. -/
def hexDigits (value : Nat) : List Char := Nat.toDigits 16 value

/-- A character as it is written between the quotes. -/
def quoteChar (c : Char) : List Char :=
  match c with
  | '"' => ['\\', '"']
  | '\\' => ['\\', '\\']
  | '\x00' => ['\\', '0']
  | '\t' => ['\\', 't']
  | '\r' => ['\\', 'r']
  | '\n' => ['\\', 'n']
  | c =>
    if isInvisible c then ['\\', 'u', '\x7b'] ++ hexDigits c.toNat ++ ['\x7d'] else [c]

/-- The text between quotes. -/
def quote (text : String) : String :=
  "\"" ++ String.ofList (text.toList.flatMap quoteChar) ++ "\""

/-- An optional text: `None`, or `Some` and the quoted text. -/
def quote? : Option String → String
  | none => "None"
  | some text => "Some(" ++ quote text ++ ")"

/-! ## Form-encoded texts

Letters, digits and `* - . _` stand for themselves, a space is a plus sign, and each byte of the
UTF-8 form of anything else is a percent sign and two digits. -/

/-- The hexadecimal digit of a value below 16, in upper case. -/
def upperHexDigit (value : Nat) : Char :=
  if value < 10 then Char.ofNat ('0'.toNat + value) else Char.ofNat ('A'.toNat + (value - 10))

/-- The character stands for itself in an encoded value. -/
def isFormSafe (c : Char) : Bool :=
  c.isAlphanum || c = '*' || c = '-' || c = '.' || c = '_'

/-- The encoding of one character. -/
def formEncodeChar (c : Char) : List Char :=
  if isFormSafe c then [c]
  else if c = ' ' then ['+']
  else
    (String.singleton c).toUTF8.toList.flatMap fun byte =>
      ['%', upperHexDigit (byte.toNat / 16), upperHexDigit (byte.toNat % 16)]

/-- The encoded text. -/
def formEncode (text : String) : String := String.ofList (text.toList.flatMap formEncodeChar)

end NetLab.Text
