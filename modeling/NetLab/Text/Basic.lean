/-!
# Texts and their characters

Sets of characters, white space at the ends of a text, texts inside texts, and the numbers that rows
of digits write.
-/

namespace NetLab.Text

/-! ## Sets of characters

A set of code points is given by the ascending list of the points at which membership changes:
the first is the first member, the second the first non-member after it, and so on. -/

/-- Membership in the set with these flips: an odd number of them have been passed. -/
def inFlips (flips : List Nat) (code : Nat) : Bool :=
  (flips.takeWhile (· ≤ code)).length % 2 = 1

/-! ## White space -/

/-- The characters of the property `White_Space`. -/
def blankFlips : List Nat := [
  0x9, 0xE, 0x20, 0x21, 0x85, 0x86, 0xA0, 0xA1, 0x1680, 0x1681, 0x2000, 0x200B, 0x2028, 0x202A,
  0x202F, 0x2030, 0x205F, 0x2060, 0x3000, 0x3001]

/-- The character is white space. -/
def isBlank (c : Char) : Bool := inFlips blankFlips c.toNat

/-- The characters without those at both ends that pass the test. -/
def stripWhere (test : Char → Bool) (chars : List Char) : List Char :=
  ((chars.dropWhile test).reverse.dropWhile test).reverse

/-- The text without white space at its ends. -/
def trim (text : String) : String := String.ofList (stripWhere isBlank text.toList)

/-! ## Texts inside texts -/

/-- The characters of `pattern` stand next to each other somewhere in the list. -/
def occursInChars (pattern : List Char) : List Char → Bool
  | [] => pattern.isEmpty
  | c :: rest => pattern.isPrefixOf (c :: rest) || occursInChars pattern rest

theorem occursInChars_iff (pattern chars : List Char) :
    occursInChars pattern chars = true ↔ pattern <:+: chars := by
  induction chars with
  | nil => simp [occursInChars]
  | cons c rest ih =>
    simp only [occursInChars, Bool.or_eq_true, List.isPrefixOf_iff_prefix, ih]
    rw [List.infix_cons_iff]

/-- The pattern stands somewhere in the text. -/
def occursIn (pattern text : String) : Bool := occursInChars pattern.toList text.toList

/-- The pattern stands at the beginning of the text. -/
def beginsWith (pattern text : String) : Bool := pattern.toList.isPrefixOf text.toList

theorem occursIn_iff (pattern text : String) :
    occursIn pattern text = true ↔ pattern.toList <:+: text.toList :=
  occursInChars_iff _ _

theorem beginsWith_iff (pattern text : String) :
    beginsWith pattern text = true ↔ pattern.toList <+: text.toList :=
  List.isPrefixOf_iff_prefix

/-! ## Digits, in bases up to sixteen -/

/-- The value of a digit. -/
def digitValue? (base : Nat) (c : Char) : Option Nat :=
  let value? :=
    if c.isDigit then some (c.toNat - '0'.toNat)
    else if 'a' ≤ c ∧ c ≤ 'f' then some (c.toNat - 'a'.toNat + 10)
    else if 'A' ≤ c ∧ c ≤ 'F' then some (c.toNat - 'A'.toNat + 10)
    else none
  value?.filter (· < base)

/-- The number that a row of digits writes; other characters count as zeros. -/
def valueOf (base : Nat) (digits : List Char) : Nat :=
  digits.foldl (fun n c => n * base + (digitValue? base c).getD 0) 0

/-- The number that a row of digits writes, if it is one and not empty. -/
def valueOf? (base : Nat) (digits : List Char) : Option Nat :=
  if !digits.isEmpty && digits.all fun c => (digitValue? base c).isSome then
    some (valueOf base digits)
  else none

end NetLab.Text
