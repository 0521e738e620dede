/-!
# Methods and targets of requests

A request names a method and a target.  A method is a token.  A target is written in one of three
forms:

- a path and, after a question mark, a query;
- a scheme and an authority before them, which play no part here;
- an authority alone, which leaves the path empty.

A fragment is cut off.  A character that would have to be encoded makes a target invalid.
Characters outside ASCII are taken from others, but never sent.
-/

namespace NetLab.Http

/-- A character of a token. -/
def isTokenChar (c : Char) : Bool := c.isAlphanum || "!#$%&'*+-.^_\x60|~".toList.contains c

/-- The text is the name of a method. -/
def isMethod (text : String) : Bool := !text.toList.isEmpty && text.toList.all isTokenChar

/-! ## Authorities -/

/-- A character that begins the path, the query or the fragment. -/
def isDelimiter (c : Char) : Bool := c = '/' || c = '?' || c = '#'

/-- What has been read of an authority. -/
structure AuthorityState where
  /-- The colons since the user information or the address in brackets. -/
  colons : Nat
  /-- A bracket has been opened. -/
  opened : Bool
  /-- A bracket has been closed. -/
  closed : Bool
  /-- There is a percent sign outside the user information. -/
  percent : Bool
  /-- The user information has just ended. -/
  bare : Bool

namespace AuthorityState

/-- Nothing has been read. -/
def start : AuthorityState := ⟨0, false, false, false, false⟩

/-- The most colons of an address in brackets. -/
def maxColons : Nat := 8

/-- One more character. -/
def step? (state : AuthorityState) (c : Char) : Option AuthorityState :=
  let state := { state with bare := false }
  match c with
  | ':' => if state.colons < maxColons then some { state with colons := state.colons + 1 } else none
  | '[' => if state.percent || state.opened then none else some { state with opened := true }
  | ']' =>
    if !state.opened || state.closed then none
    else some { state with closed := true, colons := 0, percent := false }
  | '@' => some { state with colons := 0, percent := false, bare := true }
  | '%' => some { state with percent := true }
  | c =>
    if c.isAlphanum || "!$&'()*+,-.;=_~".toList.contains c then some state else none

/-- The authority may end here: the brackets match, a port is all that follows the host, and there
is a host after the user information. -/
def isComplete (state : AuthorityState) : Bool :=
  state.opened = state.closed && state.colons ≤ 1 && !state.bare && !state.percent

end AuthorityState

/-- The characters are an authority. -/
def isAuthority (chars : List Char) : Bool :=
  (chars.foldlM AuthorityState.step? .start).any AuthorityState.isComplete

/-! ## Targets -/

/-- What a request is about. -/
structure Target where
  path : String
  query : Option String
deriving DecidableEq

namespace Target

/-- The most bytes of a target. -/
def maxLength : Nat := 65534

/-- A printable character of ASCII other than a space. -/
def isVisible (c : Char) : Bool := '\x21' ≤ c && c ≤ '\x7e'

/-- A character that a path may hold. -/
def isPathChar (c : Char) : Bool :=
  isVisible c && c ≠ '#' && c ≠ '<' && c ≠ '>' && c ≠ '?' && c ≠ '\x60'

/-- A character that a query may hold. -/
def isQueryChar (c : Char) : Bool :=
  isVisible c && c ≠ '"' && c ≠ '#' && c ≠ '<' && c ≠ '>'

/-- A path and a query, with characters outside ASCII if `wide` says so. -/
def ofPath? (wide : Bool) (chars : List Char) : Option Target :=
  let admits (test : Char → Bool) (c : Char) : Bool := test c || (wide && '\x7f' ≤ c)
  let chars := chars.takeWhile (· ≠ '#')
  let path := chars.takeWhile (· ≠ '?')
  let query := match chars.dropWhile (· ≠ '?') with
    | _ :: query => some query
    | [] => none
  if path.all (admits isPathChar) && (query.getD []).all (admits isQueryChar) then
    some ⟨if path.isEmpty then "/" else String.ofList path, query.map String.ofList⟩
  else none

/-- What follows the scheme, if there is one. -/
def afterScheme? (chars : List Char) : Option (List Char) :=
  let isSchemeChar (c : Char) : Bool := c.isAlphanum || "+-.~".toList.contains c
  match chars.dropWhile isSchemeChar with
  | ':' :: '/' :: '/' :: rest => some rest
  | _ => none

/-- The target that a text writes, with characters outside ASCII if `wide` says so. -/
def ofText? (wide : Bool) (text : String) : Option Target :=
  let chars := text.toList
  if text.utf8ByteSize > maxLength then none
  else if chars.head? = some '/' then ofPath? wide chars
  else
    match afterScheme? chars with
    | some rest =>
      let authority := rest.takeWhile fun c => !isDelimiter c
      if !authority.isEmpty && isAuthority authority then
        ofPath? wide (rest.dropWhile fun c => !isDelimiter c)
      else none
    | none => if !chars.isEmpty && isAuthority chars then some ⟨"", none⟩ else none

end Target

end NetLab.Http
