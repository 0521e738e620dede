import NetLab.Yaml.Node
import NetLab.Yaml.Scalar

/-!
# Reading YAML

`Yaml.parse?` reads a text that holds one document.  The reader descends through the document:
`readBlock` reads a node in block style and `readFlow` one between brackets.  A node in block style
belongs to what begins further left; `least` is the column from which on its lines may begin.

A mapping in block style begins with its first key, so the reader first tries to read a key
(`readKey`): a node in one line, not too long, with a colon and a blank after it.

The readers return the state after the node.  A reader calls another only for a shorter rest, or
for the same rest and a smaller part of the grammar.
-/

namespace NetLab.Yaml

/-- Where the reader stands and what it knows. -/
structure State where
  place : Place
  /-- A key or a dash may begin here. -/
  fresh : Bool
  /-- The nodes that were given a name, the last one first; an empty node for one that has not been
  read to its end. -/
  anchors : List Anchor

/-- A node and the state after it. -/
abbrev Reading := Node × State

namespace State

def rest (s : State) : List Char := s.place.rest

def column (s : State) : Nat := s.place.column

/-- The state at another place. -/
def move (s : State) (place : Place) (fresh : Bool) : State := { s with place, fresh }

/-- The number of characters left. -/
def size (s : State) : Nat := s.place.rest.length

/-- The character that is next. -/
def head? (s : State) : Option Char := s.place.rest.head?

end State

/-! ## Between tokens -/

/-- Skips blanks, comments and line breaks.  In block style a line break lets a key or a dash begin,
and a tab is no blank where one may begin. -/
def skipFrom (flow comment fresh : Bool) : List Char → Place → Place × Bool
  | [], s => (s, fresh)
  | c :: rest, s =>
    if isBreak c then skipFrom flow false (fresh || !flow) rest s.next
    else if comment || c = '#' then skipFrom flow true fresh rest s.next
    else if c = ' ' || (c = '\t' && (flow || !fresh)) then skipFrom flow false fresh rest s.next
    else if c = '\ufeff' && s.column = 0 then skipFrom flow false fresh rest s.next
    else (s, fresh)

namespace State

/-- The state at the next token. -/
def skip (flow : Bool) (s : State) : State :=
  let (place, fresh) := skipFrom flow false s.fresh s.place.rest s.place
  s.move place fresh

end State

/-! ## Names and tags -/

/-- A character of the name of a node. -/
def isNameChar (c : Char) : Bool := c.isAlphanum || c = '_' || c = '-'

/-- The character after a name ends it. -/
def endsName : List Char → Bool
  | [] => true
  | c :: _ => isSpace c || isBreak c || "?:,]\x7d%@\x60".toList.contains c

/-- Reads a name from after its mark. -/
def scanName (s : Place) : Option (String × Place) :=
  let name := s.rest.takeWhile isNameChar
  let after := s.ahead name.length
  if name.isEmpty || !endsName after.rest then none else some (String.ofList name, after)

/-- A character of a tag. -/
def isTagChar (c : Char) : Bool := c.isAlphanum || "-_;/?:@&=+$.!~*'()".toList.contains c

/-- Reads a tag from after its exclamation mark.  No names for parts of tags are known beside the
empty one, so a second exclamation mark may not follow a name. -/
def scanTag (flow : Bool) (s : Place) : Option (String × Place) :=
  let ended (place : Place) : Bool :=
    blankAhead place.rest || (flow && place.rest.head? = some ',')
  match s.rest with
  | '<' :: rest =>
    let uri := rest.takeWhile fun c => isTagChar c || c = ',' || c = '[' || c = ']'
    let after := s.ahead (uri.length + 1)
    if !uri.isEmpty && after.rest.head? = some '>' && ended after.next then
      some (String.ofList uri, after.next)
    else none
  | '!' :: rest =>
    let suffix := rest.takeWhile isTagChar
    let after := s.ahead (suffix.length + 1)
    if !suffix.isEmpty && ended after then
      some ("tag:yaml.org,2002:" ++ String.ofList suffix, after)
    else none
  | rest =>
    let suffix := rest.takeWhile isTagChar
    let after := s.ahead suffix.length
    if (rest.dropWhile isNameChar).head? != some '!' && ended after then
      some ("!" ++ String.ofList suffix, after)
    else none

/-- What is said about a node before it: the place of its name among the names, counted from the
first one, and its tag. -/
structure Properties where
  entry : Option Nat
  tag : Option String
deriving DecidableEq

namespace State

/-- Enters a name.  Its number is the number of different names before it, so a name that is given
anew may come to share its number with the next new one. -/
def enter (s : State) (name : String) : State :=
  let number := (s.anchors.map Anchor.name).eraseDups.length
  { s with anchors := ⟨name, number, .empty none⟩ :: s.anchors }

/-- Enters a node under the name that it was given. -/
def fill (s : State) (properties : Properties) (node : Node) : State :=
  match properties.entry with
  | some entry =>
    let later := s.anchors.length - (entry + 1)
    { s with anchors := s.anchors.modify later fun anchor => { anchor with node } }
  | none => s

end State

namespace Properties

def none : Properties := ⟨.none, .none⟩

/-- Reads one property, unless there is one of its kind already. -/
def scan (flow : Bool) (properties : Properties) (s : State) : Option (Properties × State) :=
  match s.head?, properties.entry, properties.tag with
  | some '&', .none, tag =>
    (scanName s.place.next).map fun (name, place) =>
      (⟨some s.anchors.length, tag⟩, (s.move place false).enter name)
  | some '!', entry, .none =>
    (scanTag flow s.place.next).map fun (tag, place) => (⟨entry, some tag⟩, s.move place false)
  | _, _, _ => .none

/-- A property is next. -/
def isNext (s : State) : Bool := s.head? = some '&' || s.head? = some '!'

/-- A node with its properties, and the state after it. -/
def reading (properties : Properties) (node : Node) (after : State) : Reading :=
  (node, after.fill properties node)

/-- A node that was left out. -/
def nothing (properties : Properties) (s : State) : Reading :=
  properties.reading (.empty properties.tag) s

end Properties

/-! ## Nodes in one piece -/

/-- Reads the node that a star names. -/
def readAlias (s : State) : Option Reading :=
  match scanName s.place.next with
  | some (name, place) =>
    (s.anchors.find? fun anchor => anchor.name = name).map fun anchor =>
      (.alias anchor.number, s.move place false)
  | none => none

/-- A plain scalar may begin here. -/
def beginsPlain (flow : Bool) : List Char → Bool
  | [] => false
  | c :: rest =>
    if isSpace c || isBreak c then false
    else if c = '-' then !blankAhead rest
    else if c = '?' || c = ':' then !flow && !blankAhead rest
    else !isIndicator c

/-- Reads a plain or quoted scalar. -/
def readScalar (flow : Bool) (least : Nat) (properties : Properties) (s : State) :
    Option Reading :=
  match s.head? with
  | some '\'' =>
    (scanQuoted false [] s.place.next).map fun (text, place) =>
      properties.reading (.scalar (String.ofList text) false properties.tag) (s.move place false)
  | some '"' =>
    (scanQuoted true [] s.place.next).map fun (text, place) =>
      properties.reading (.scalar (String.ofList text) false properties.tag) (s.move place false)
  | _ =>
    if beginsPlain flow s.rest then
      (scanPlain flow least [] .empty s.place).map fun plain =>
        properties.reading (.scalar (String.ofList plain.text) true properties.tag)
          (s.move plain.place plain.freshLine)
    else none

/-- The longest key, in characters. -/
def maxKeyLength : Nat := 1024

/-- A colon that is next belongs to the key that began at `start`: it is in the same line and not
too far away. -/
def endsKey (start s : State) : Bool :=
  s.head? = some ':' && s.place.line = start.place.line && start.size - s.size ≤ maxKeyLength

/-! ## Flow style -/

/-- A comma or a closing bracket is next. -/
def closesFlow (s : State) : Bool :=
  s.head? = some ',' || s.head? = some ']' || s.head? = some '\x7d'

/-- A node is next, and not what may stand after one that was left out. -/
def beginsFlow (s : State) : Bool := !closesFlow s && s.head? != some ':'

mutual

/-- Reads a node between brackets. -/
def readFlow (least : Nat) (properties : Properties) (s : State) : Option Reading :=
  if Properties.isNext s then
    match properties.scan true s with
    | none => none
    | some (properties, after) =>
      let next := after.skip true
      if next.size < s.size then
        if beginsFlow next then readFlow least properties next
        else some (properties.nothing next)
      else none
  else if s.place.atEnd then none
  else
    match s.head? with
    | some '*' => if properties = .none then readAlias s else none
    | some '[' =>
      let next := (s.move s.place.next true).skip true
      if next.size < s.size then
        (readItems least [] next).map fun (items, after) =>
          properties.reading (.sequence items) after
      else none
    | some '\x7b' =>
      let next := (s.move s.place.next true).skip true
      if next.size < s.size then
        (readPairs least [] next).map fun (entries, after) =>
          properties.reading (.mapping entries) after
      else none
    | _ => readScalar true least properties s
termination_by (s.size, 0)

/-- Reads the items of a sequence up to its closing bracket, after the reversed `read`. -/
def readItems (least : Nat) (read : List Node) (s : State) : Option (List Node × State) :=
  if s.head? = some ']' then some (read.reverse, s.move s.place.next false)
  else
    match readPair least false s with
    | none => none
    | some (key, value?, after) =>
      let item := match value? with
        | some value => .mapping [(key, value)]
        | none => key
      match after.head? with
      | some ']' => some ((item :: read).reverse, after.move after.place.next false)
      | some ',' =>
        let next := (after.move after.place.next true).skip true
        if next.size < s.size then readItems least (item :: read) next else none
      | _ => none
termination_by (s.size, 2)

/-- Reads the entries of a mapping up to its closing brace, after the reversed `read`. -/
def readPairs (least : Nat) (read : List (Node × Node)) (s : State) :
    Option (List (Node × Node) × State) :=
  if s.head? = some '\x7d' then some (read.reverse, s.move s.place.next false)
  else
    match readPair least true s with
    | none => none
    | some (key, value?, after) =>
      let entry := (key, value?.getD (.empty none))
      match after.head? with
      | some '\x7d' => some ((entry :: read).reverse, after.move after.place.next false)
      | some ',' =>
        let next := (after.move after.place.next true).skip true
        if next.size < s.size then readPairs least (entry :: read) next else none
      | _ => none
termination_by (s.size, 2)

/-- Reads a node, or two with a colon between them; the state is at the token after.  A key that is
marked may be left out in a mapping, but not in a sequence. -/
def readPair (least : Nat) (inMapping : Bool) (s : State) :
    Option (Node × Option Node × State) :=
  if s.head? = some '?' then
    let next := (s.move s.place.next false).skip true
    if next.size < s.size then
      let key? :=
        if beginsFlow next then readFlow least .none next
        else if inMapping then some (Properties.none.nothing next)
        else none
      match key? with
      | none => none
      | some (key, after) =>
        let colon := after.skip true
        if colon.head? = some ':' then
          if colon.size < s.size then
            (readFlowValue least colon).map fun (value, after) => (key, some value, after)
          else none
        else some (key, some (.empty none), colon)
    else none
  else
    match readFlow least .none s with
    | none => none
    | some (key, after) =>
      let colon := after.skip true
      if colon.head? = some ':' then
        if colon.size < s.size then
          if endsKey s colon then
            (readFlowValue least colon).map fun (value, after) => (key, some value, after)
          else none
        else none
      else some (key, none, colon)
termination_by (s.size, 1)

/-- Reads the value after a colon; the state is at the token after. -/
def readFlowValue (least : Nat) (s : State) : Option Reading :=
  let next := (s.move s.place.next false).skip true
  if closesFlow next then some (Properties.none.nothing next)
  else if next.size < s.size then
    (readFlow least .none next).map fun (value, after) => (value, after.skip true)
  else none
termination_by (s.size, 0)

end

/-! ## Block style -/

/-- Reads a node in one piece: its properties, and an alias, a node between brackets or a scalar.
It is in one line up to where the piece begins. -/
def readPiece (least : Nat) (properties : Properties) (s : State) : Option Reading :=
  if Properties.isNext s then
    match properties.scan false s with
    | none => none
    | some (properties, after) =>
      let next := after.skip false
      if next.place.line ≠ s.place.line then none
      else if next.place.atIndicator ':' then some (properties.nothing next)
      else if next.size < s.size then readPiece least properties next
      else none
  else
    match s.head? with
    | some '*' => if properties = .none then readAlias s else none
    | some '[' | some '\x7b' => readFlow least properties s
    | _ => readScalar false least properties s
termination_by s.size

/-- Reads a key of a mapping in block style, and the colon after it. -/
def readKey (least : Nat) (s : State) : Option Reading :=
  if s.fresh then
    match readPiece least .none s with
    | none => none
    | some (key, after) =>
      let colon := after.skip false
      if endsKey s colon && colon.place.atIndicator ':' then
        some (key, colon.move colon.place.next false)
      else none
  else none

/-- A block scalar is next. -/
def beginsBlockScalar (s : State) : Bool := s.head? = some '|' || s.head? = some '>'

/-- No node is here for what reaches from the column before `least`: the document ends, the line
belongs to something further left, or it goes on with what stands at that column.  A sequence
that is a value in a mapping may stand at the column of the mapping itself. -/
def leavesOut (least : Nat) (inMapping : Bool) (s : State) : Bool :=
  s.place.atEnd || s.column + 1 < least ||
    (s.column + 1 = least &&
      !((inMapping && s.place.atIndicator '-') || beginsBlockScalar s))

mutual

/-- Reads a node in block style, if there is one. -/
def readValue (least : Nat) (inMapping : Bool) (properties : Properties) (s : State) :
    Option Reading :=
  if leavesOut least inMapping s then some (properties.nothing s)
  else readBlock least inMapping properties s
termination_by (s.size, 3)

/-- Reads a node in block style. -/
def readBlock (least : Nat) (inMapping : Bool) (properties : Properties) (s : State) :
    Option Reading :=
  if s.place.atIndicator '-' then
    if s.fresh then
      (readEntries s.column (s.column + 1 = least) [] s).map fun (items, after) =>
        properties.reading (.sequence items) after
    else none
  else if s.place.atIndicator '?' || (readKey least s).isSome then
    if s.fresh then
      (readMapping s.column [] s).map fun (entries, after) =>
        properties.reading (.mapping entries) after
    else none
  else if s.place.atIndicator ':' then none
  else if beginsBlockScalar s then
    (scanBlock (s.head? = some '>') least s.place.next).map fun (text, place) =>
      properties.reading (.scalar (String.ofList text) false properties.tag)
        (s.move place true)
  else if Properties.isNext s then
    match properties.scan false s with
    | none => none
    | some (properties, after) =>
      let next := after.skip false
      if next.size < s.size then readValue least inMapping properties next else none
  else readPiece least properties s
termination_by (s.size, 2)

/-- Reads the items of a sequence whose dashes stand at a column, after the reversed `read`.  A
sequence at the column of its mapping ends where the mapping goes on. -/
def readEntries (column : Nat) (inMapping : Bool) (read : List Node) (s : State) :
    Option (List Node × State) :=
  let next := (s.move s.place.next true).skip false
  if next.size < s.size then
    match readValue (column + 1) false .none next with
    | none => none
    | some (item, after) =>
      let next := after.skip false
      if next.place.atEnd || next.column < column then some ((item :: read).reverse, next)
      else if next.column = column then
        if next.place.atIndicator '-' then
          if next.fresh then
            if next.size < s.size then readEntries column inMapping (item :: read) next else none
          else none
        else if inMapping then some ((item :: read).reverse, next)
        else none
      else none
  else none
termination_by (s.size, 0)

/-- Reads the entries of a mapping whose keys stand at a column, after the reversed `read`. -/
def readMapping (column : Nat) (read : List (Node × Node)) (s : State) :
    Option (List (Node × Node) × State) :=
  let entry? :=
    if s.place.atIndicator '?' then readExplicit column s
    else
      match readKey (column + 1) s with
      | none => none
      | some (key, after) =>
        let next := after.skip false
        if next.size < s.size then
          (readValue (column + 1) true .none next).map fun (value, after) => (key, value, after)
        else none
  match entry? with
  | none => none
  | some (key, value, after) =>
    let read := (key, value) :: read
    let next := after.skip false
    if next.place.atEnd || next.column < column then some (read.reverse, next)
    else if next.column = column then
      if next.size < s.size then readMapping column read next else none
    else none
termination_by (s.size, 1)

/-- Reads an entry whose key is marked by a question mark; its value, marked by a colon at the
same column, may be missing. -/
def readExplicit (column : Nat) (s : State) : Option (Node × Node × State) :=
  let next := (s.move s.place.next true).skip false
  if !s.fresh then none
  else if next.size < s.size then
    match readValue (column + 1) true .none next with
    | none => none
    | some (key, after) =>
      let colon := after.skip false
      if !colon.place.atEnd && colon.column = column && colon.place.atIndicator ':' &&
          colon.fresh then
        let next := (colon.move colon.place.next true).skip false
        if next.size < s.size then
          (readValue (column + 1) true .none next).map fun (value, after) => (key, value, after)
        else none
      else some (key, .empty none, colon)
  else none
termination_by (s.size, 0)

end

/-! ## Documents -/

/-- Reads a row of digits. -/
def scanNumber (s : Place) : Option (Nat × Place) :=
  let digits := s.rest.takeWhile Char.isDigit
  if 9 < digits.length then none
  else (Text.valueOf? 10 digits).map fun value => (value, s.ahead digits.length)

/-- Reads the line that states the version of YAML; 1.1 and 1.2 are read alike. -/
def scanVersion (s : Place) : Option Place := do
  let word := "%YAML".toList
  if !word.isPrefixOf s.rest || !blankAhead (s.rest.drop word.length) then none
  let (major, s) ← scanNumber ((s.ahead word.length).afterWhile isSpace)
  if s.rest.head? ≠ some '.' then none
  let (minor, s) ← scanNumber s.next
  let s := s.afterWhile isSpace
  let s := if s.rest.head? = some '#' then s.afterWhile fun c => !isBreak c else s
  if major = 1 && (minor = 1 || minor = 2) && (s.rest.head?.map isBreak).getD true then some s
  else none

/-- The state where the document begins, and whether dashes mark the beginning.  A version needs
dashes after it. -/
def beginDocument (s : State) : Option (State × Bool) :=
  let dashes (s : State) : State := (s.move (s.place.ahead 3) false).skip false
  if s.column = 0 && s.head? = some '%' then
    match scanVersion s.place with
    | none => none
    | some place =>
      let s := (s.move place false).skip false
      if s.place.atMark '-' then some (dashes s, true) else none
  else if s.place.atMark '-' then some (dashes s, true)
  else some (s, false)

/-- Nothing follows but marks of the end of a document. -/
def endsDocument (s : State) : Bool :=
  if s.rest.isEmpty then true
  else if s.place.atMark '.' then
    let next := (s.move (s.place.ahead 3) false).skip false
    if next.size < s.size then endsDocument next else false
  else false
termination_by s.size

/-- The document that a text holds, if it holds one. -/
def parse? (text : String) : Option Part := do
  let chars := normalizeBreaks text.toList
  if !chars.all isReadable then none
  let (s, marked) ← beginDocument ((State.mk (.start chars) true []).skip false)
  let (node, after) ←
    if s.place.atEnd then if marked then some (Properties.none.nothing s) else none
    else readBlock 0 false .none s
  if endsDocument (after.skip false) then some ⟨after.anchors, node⟩ else none

end NetLab.Yaml
