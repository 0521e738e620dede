import NetLab.Text.Basic
import NetLab.Yaml.Place

/-!
# Reading scalars

The scalars of YAML: plain, between quotes, and in blocks.  Each reader starts at the scalar and
ends after it; `none` means that the text is no YAML.

Lines are folded alike in plain and quoted scalars: blanks around a line break are dropped, a line
feed alone becomes a space, and of several the first is dropped (`Gap.text`).
-/

namespace NetLab.Yaml

/-! ## Gaps between words -/

/-- The blanks between two words: spaces in a line, or line breaks. -/
structure Gap where
  spaces : List Char
  breaks : List Char
deriving DecidableEq

namespace Gap

def empty : Gap := ⟨[], []⟩

/-- What a gap contributes to the text. -/
def text (gap : Gap) : List Char :=
  match gap.breaks with
  | [] => gap.spaces
  | ['\n'] => [' ']
  | '\n' :: more => more
  | breaks => breaks

/-- Reads a gap, after the part in `read`.  In a line after a break no tab may stand before the
column `least`. -/
def scan (least : Nat) (read : Gap) : List Char → Place → Option (Gap × Place)
  | [], s => some (read, s)
  | c :: rest, s =>
    if isBreak c then scan least ⟨[], read.breaks ++ [c]⟩ rest s.next
    else if isSpace c then
      if read.breaks.isEmpty then scan least ⟨read.spaces ++ [c], []⟩ rest s.next
      else if c = '\t' && s.column < least then none
      else scan least read rest s.next
    else some (read, s)

end Gap

/-! ## Plain scalars -/

/-- The characters after which a colon in a flow collection is an error. -/
def spoilsColon (c : Char) : Bool := isFlowMark c || c = '?'

/-- The next word of a plain scalar. -/
def plainWord? (flow : Bool) : List Char → Option (List Char)
  | [] => some []
  | c :: rest =>
    if isSpace c || isBreak c then some []
    else if flow && c = ':' && (rest.head?.map spoilsColon).getD false then none
    else if c = ':' && blankAhead rest then some []
    else if flow && isFlowMark c then some []
    else (plainWord? flow rest).map (c :: ·)

/-- A plain scalar: its text, the place after it, and whether that begins a line. -/
structure Plain where
  text : List Char
  place : Place
  freshLine : Bool

/-- Reads a plain scalar, after the text in `read` and a gap.  In a block it goes on in lines that
are indented to the column `least`. -/
def scanPlain (flow : Bool) (least : Nat) (read : List Char) (gap : Gap) (s : Place) :
    Option Plain :=
  let done : Plain := ⟨read, s, !gap.breaks.isEmpty⟩
  if s.atMark '-' || s.atMark '.' || s.rest.head? = some '#' then some done
  else
    match plainWord? flow s.rest with
    | none => none
    | some [] => some done
    | some word =>
      let read := read ++ gap.text ++ word
      let after := s.ahead word.length
      match Gap.scan least .empty after.rest after with
      | none => none
      | some (gap, place) =>
        if gap = .empty then some ⟨read, place, false⟩
        else if !flow && place.column < least then some ⟨read, place, !gap.breaks.isEmpty⟩
        else if place.rest.length < s.rest.length then scanPlain flow least read gap place
        else none
termination_by s.rest.length

/-! ## Quoted scalars -/

/-- The character of a one-letter escape. -/
def escaped? (letter : Char) : Option Char :=
  match letter with
  | '0' => some '\x00'
  | 'a' => some '\x07'
  | 'b' => some '\x08'
  | 't' | '\t' => some '\t'
  | 'n' => some '\n'
  | 'v' => some '\x0b'
  | 'f' => some '\x0c'
  | 'r' => some '\r'
  | 'e' => some '\x1b'
  | ' ' => some ' '
  | '"' => some '"'
  | '/' => some '/'
  | '\\' => some '\\'
  | 'N' => some '\u0085'
  | '_' => some '\u00a0'
  | 'L' => some '\u2028'
  | 'P' => some '\u2029'
  | _ => none

/-- The number of digits of an escape that gives a code point. -/
def escapeWidth? (letter : Char) : Option Nat :=
  match letter with
  | 'x' => some 2
  | 'u' => some 4
  | 'U' => some 8
  | _ => none

/-- The character of a code point written with that many digits. -/
def codePoint? (width : Nat) (text : List Char) : Option Char := do
  let digits := text.take width
  let code ← Text.valueOf? 16 digits
  if digits.length = width ∧ code.isValidChar then some (Char.ofNat code) else none

/-- What the text after a backslash stands for, and how many characters it has. -/
def escape? : List Char → Option (Char × Nat)
  | [] => none
  | letter :: rest =>
    match escapeWidth? letter with
    | some width => (codePoint? width rest).map fun c => (c, width + 1)
    | none => (escaped? letter).map fun c => (c, 1)

/-- Reads a quoted scalar from after its opening quote, after the reversed text in `read`. -/
def scanQuoted (double : Bool) (read : List Char) (s : Place) : Option (List Char × Place) :=
  let go (read : List Char) (place : Place) : Option (List Char × Place) :=
    if place.rest.length < s.rest.length then scanQuoted double read place else none
  if s.atMark '-' || s.atMark '.' then none
  else
    match s.rest with
    | [] => none
    | c :: rest =>
      if isSpace c || isBreak c then
        match Gap.scan 0 .empty s.rest s with
        | none => none
        | some (gap, place) => go (gap.text.reverse ++ read) place
      else if double then
        if c = '"' then some (read.reverse, s.next)
        else if c = '\\' then
          if (rest.head?.map isBreak).getD false then
            let line := s.next.next
            match Gap.scan 0 ⟨[], ['\n']⟩ line.rest line with
            | none => none
            | some (gap, place) => go ((gap.breaks.drop 1).reverse ++ read) place
          else
            match escape? rest with
            | none => none
            | some (c, count) => go (c :: read) (s.ahead (count + 1))
        else go (c :: read) s.next
      else if c = '\'' then
        if rest.head? = some '\'' then go ('\'' :: read) (s.ahead 2)
        else some (read.reverse, s.next)
      else go (c :: read) s.next
termination_by s.rest.length

/-! ## Block scalars -/

/-- What becomes of the line breaks at the end of a block scalar. -/
inductive Chomping where
  | strip
  | clip
  | keep
deriving DecidableEq

/-- The head of a block scalar: what becomes of its last line breaks, and how far it is indented
from what it belongs to, if that is said. -/
structure BlockHead where
  chomping : Chomping
  indent : Option Nat
deriving DecidableEq

namespace BlockHead

def sign? : List Char → Option (Chomping × List Char)
  | '+' :: rest => some (.keep, rest)
  | '-' :: rest => some (.strip, rest)
  | _ => none

/-- The digit for the indentation; zero is none. -/
def digit? : List Char → Option (Option (Nat × List Char))
  | c :: rest =>
    if c = '0' then none
    else if c.isDigit then some (some (c.toNat - '0'.toNat, rest))
    else some none
  | [] => some none

/-- Reads a sign and a digit in either order. -/
def ofText? (text : List Char) : Option (BlockHead × List Char) :=
  match sign? text with
  | some (chomping, rest) =>
    match digit? rest with
    | none => none
    | some none => some (⟨chomping, none⟩, rest)
    | some (some (indent, rest)) => some (⟨chomping, some indent⟩, rest)
  | none =>
    match digit? text with
    | none => none
    | some none => some (⟨.clip, none⟩, text)
    | some (some (indent, rest)) =>
      match sign? rest with
      | some (chomping, rest) => some (⟨chomping, some indent⟩, rest)
      | none => some (⟨.clip, some indent⟩, rest)

end BlockHead

/-- The empty lines before a line of a block scalar. -/
structure Blanks where
  breaks : List Char
  /-- The widest indentation that was seen. -/
  widest : Nat
  place : Place

/-- Reads empty lines and the indentation of the line after them, up to the column `indent` if it
is known.  A tab may not stand in the indentation. -/
def scanBlanks (indent : Option Nat) (breaks : List Char) (widest : Nat) :
    List Char → Place → Option Blanks
  | [], s => some ⟨breaks, max widest s.column, s⟩
  | c :: rest, s =>
    let indenting := match indent with
      | some indent => decide (s.column < indent)
      | none => true
    if c = ' ' && indenting then scanBlanks indent breaks widest rest s.next
    else if c = '\t' && indenting then none
    else if isBreak c then scanBlanks indent (breaks ++ [c]) (max widest s.column) rest s.next
    else some ⟨breaks, max widest s.column, s⟩

/-- The lines of a block scalar so far: their text, the break after the last of them and whether
it began with a blank, and the empty lines after it. -/
structure BlockLines where
  text : List Char
  lastBreak : List Char
  lastBlank : Bool
  empty : List Char
  place : Place

/-- Reads the lines that stand at the column `indent`.  In a folded block a line feed between two
lines that begin without a blank is a space, or nothing before empty lines. -/
def scanLines (folded : Bool) (indent : Nat) (lines : BlockLines) : Option BlockLines :=
  let s := lines.place
  match s.rest with
  | [] => some lines
  | c :: _ =>
    if s.column ≠ indent then some lines
    else
      let joint :=
        if folded && lines.lastBreak = ['\n'] && !lines.lastBlank && !isSpace c then
          if lines.empty.isEmpty then [' '] else []
        else lines.lastBreak
      let line := s.rest.takeWhile fun c => !isBreak c
      let after := s.ahead line.length
      let lastBreak := after.rest.take 1
      match scanBlanks (some indent) [] 0 after.next.rest after.next with
      | none => none
      | some blanks =>
        if blanks.place.rest.length < s.rest.length then
          scanLines folded indent
            ⟨lines.text ++ joint ++ lines.empty ++ line, lastBreak, isSpace c, blanks.breaks,
              blanks.place⟩
        else none
termination_by lines.place.rest.length

/-- Reads a block scalar from after its first character.  What it belongs to stands one column
before `least`. -/
def scanBlock (folded : Bool) (least : Nat) (s : Place) : Option (List Char × Place) :=
  match BlockHead.ofText? s.rest with
  | none => none
  | some (head, rest) =>
    let s := (s.ahead (s.rest.length - rest.length)).afterWhile isSpace
    let s := if s.rest.head? = some '#' then s.afterWhile fun c => !isBreak c else s
    if !s.rest.isEmpty && !(s.rest.head?.map isBreak).getD true then none
    else
      let indent? := head.indent.map fun indent => (least - 1) + indent
      match scanBlanks indent? [] 0 s.next.rest s.next with
      | none => none
      | some blanks =>
        let indent := indent?.getD (max (max blanks.widest least) 1)
        match scanLines folded indent ⟨[], [], false, blanks.breaks, blanks.place⟩ with
        | none => none
        | some lines =>
          let text := match head.chomping with
            | .strip => lines.text
            | .clip => lines.text ++ lines.lastBreak
            | .keep => lines.text ++ lines.lastBreak ++ lines.empty
          some (text, lines.place)

end NetLab.Yaml
