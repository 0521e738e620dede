import NetLab.Text.LowerCase

/-!
# DNS labels

Object names are DNS-1035 labels: at most 63 characters from `a`–`z`, `0`–`9` and `-`, a letter
first and no dash last.  `DnsLabel.ofParts` makes one out of any texts.
-/

namespace NetLab.DnsLabel

/-- The longest label. -/
def maxLength : Nat := 63

/-- A lower-case letter of ASCII. -/
def isLetter (c : Char) : Bool := 'a' ≤ c && c ≤ 'z'

/-- A letter or digit of ASCII. -/
def isAlphanumeric (c : Char) : Bool :=
  isLetter c || ('A' ≤ c && c ≤ 'Z') || ('0' ≤ c && c ≤ '9')

/-- The characters with a dash for each that a label cannot hold. -/
def dashed (chars : List Char) : List Char :=
  chars.map fun c => if isAlphanumeric c then c else '-'

/-- The characters, after `ns-` unless they begin with a letter. -/
def lettered (chars : List Char) : List Char :=
  match chars with
  | c :: _ => if isLetter c then chars else 'n' :: 's' :: '-' :: chars
  | [] => ['n', 's', '-']

/-- The characters without the dashes at the end. -/
def trimmed (chars : List Char) : List Char :=
  (chars.reverse.dropWhile (· = '-')).reverse

/-- The label of some parts: joined by dashes, in lower case, with a dash for each character a
label cannot hold, after `ns-` if no letter comes first, cut to the longest length and without
dashes at the end. -/
def ofParts (parts : List String) : String :=
  let chars := (Text.lower (String.intercalate "-" parts)).toList
  String.ofList (trimmed ((lettered (dashed chars)).take maxLength))

end NetLab.DnsLabel
