import NetLab.Json.Basic

/-!
# Structural schemas

The API server stores an object in the form its schema gives it: fields the schema does not know
are pruned, `null` fields are dropped, fields that must be there are written with their default,
and a value of the wrong type is refused.  `Schema.admit?` computes that form.  Comparison of
objects is comparison of these forms.
-/

namespace NetLab.Kube

mutual

/-- The shape of a value. -/
inductive Schema where
  /-- Any value, kept as it is. -/
  | any
  | bool
  /-- An integer of this range. -/
  | int (lo hi : Int)
  | text
  /-- An integer of 32 bits or a text. -/
  | intOrText
  /-- Bytes in base 64. -/
  | bytes
  | list (item : Schema)
  /-- An object with members of any names. -/
  | map (value : Schema)
  /-- An object with these fields. -/
  | record (fields : List Field)

/-- A field of a record, with the value written where it is missing. -/
inductive Field where
  | mk (name : String) (schema : Schema) (default : Option Json)

end

namespace Schema

/-- The integers of 32 bits. -/
def int32 : Schema := .int (-2147483648) 2147483647

/-- The integers of 64 bits. -/
def int64 : Schema := .int (-9223372036854775808) 9223372036854775807

/-- A map of texts. -/
def texts : Schema := .map .text

/-- A field that may be missing. -/
def opt (name : String) (schema : Schema) : Field := .mk name schema none

/-- A field that is always written. -/
def always (name : String) (schema : Schema) (default : Json) : Field := .mk name schema default

/-- A digit of base 64. -/
def isBase64Digit (c : Char) : Bool := c.isAlphanum || c = '+' || c = '/'

/-- Canonical base 64: groups of four, the last one padded, and no bit set that no byte holds. -/
def isBase64 : List Char → Bool
  | [] => true
  | [a, b, '=', '='] => isBase64Digit a && (b = 'A' || b = 'Q' || b = 'g' || b = 'w')
  | [a, b, c, '='] =>
    isBase64Digit a && isBase64Digit b && "AEIMQUYcgkosw048".toList.contains c
  | a :: b :: c :: d :: rest =>
    isBase64Digit a && isBase64Digit b && isBase64Digit c && isBase64Digit d && isBase64 rest
  | _ => false

mutual

/-- The form in which a value of this shape is stored; `none` if it has not this shape. -/
def admit? : Schema → Json → Option Json
  | .any, value => some value
  | .bool, .bool b => some (.bool b)
  | .int lo hi, value => (value.asIntIn? lo hi).map Json.int
  | .text, .string s => some (.string s)
  | .intOrText, .string s => some (.string s)
  | .intOrText, value => (value.asIntIn? (-2147483648) 2147483647).map Json.int
  | .bytes, .string s => if isBase64 s.toList then some (.string s) else none
  | .list item, .array items => (items.mapM fun value => admit? item value).map .array
  | .map schema, .object members =>
    (members.mapM fun member => (admit? schema member.2).map (Prod.mk member.1)).map .object
  | .record fields, .object members => (admitFields? fields members).map Json.ofMembers
  | _, _ => none
termination_by structural schema => schema

/-- The fields of a record as they are stored. -/
def admitFields? : List Field → List (String × Json) → Option (List (String × Json))
  | [], _ => some []
  | .mk name schema default :: rest, members =>
    match (Json.object members).get name, default with
    | .null, none => admitFields? rest members
    | .null, some default => (admitFields? rest members).map ((name, default) :: ·)
    | value, _ => do
      let value ← admit? schema value
      let rest ← admitFields? rest members
      return (name, value) :: rest
termination_by structural fields => fields

end

end Schema

end NetLab.Kube
