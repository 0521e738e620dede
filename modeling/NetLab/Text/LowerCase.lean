import NetLab.Text.CaseContext
import NetLab.Text.CaseRuns

/-!
# Lower case

The lower-case form of a text by the full Unicode rules.  A character is replaced by its simple
lower-case mapping (`caseRuns`) with two exceptions: a capital I with a dot becomes an i and a
combining dot, and a capital sigma takes its final form where it ends a word.
-/

namespace NetLab.Text

/-- The lower-case form of a character wherever it stands. -/
def lowerChar (c : Char) : List Char :=
  let code := c.toNat
  if code < 0x80 then [c.toLower]
  else if code = 0x130 then ['i', '\u0307']
  else
    match caseRuns.find? fun run => code ≤ run.last with
    | some run =>
      if run.first ≤ code ∧ (code - run.first) % run.step = 0 then
        [Char.ofNat ((code : Int) + run.delta).toNat]
      else [c]
    | none => [c]

/-- Reading away from a position, the first character that is not ignorable has case. -/
def meetsCased (chars : List Char) : Bool :=
  match chars.dropWhile isCaseIgnorable with
  | c :: _ => isCased c
  | [] => false

/-- Lower case of the characters that follow those of `before`, which is in reverse order. -/
def lowerAfter (before : List Char) : List Char → List Char
  | [] => []
  | c :: rest =>
    let lowered :=
      if c = 'Σ' then [if meetsCased before && !meetsCased rest then 'ς' else 'σ']
      else lowerChar c
    lowered ++ lowerAfter (c :: before) rest

/-- The text in lower case. -/
def lower (text : String) : String := String.ofList (lowerAfter [] text.toList)

end NetLab.Text
