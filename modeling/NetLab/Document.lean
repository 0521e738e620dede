import NetLab.Json.Basic

/-!
# Reading records from documents

A topology is read from JSON or from YAML by one set of readers.  `Document δ` is what they need to
know about a parsed value of type `δ`; `Document.field?`, `Document.orDefault?` and
`Document.optional?` are the three ways in which a record may have a field:

* a required field has to be there once;
* a defaulted field may be missing, but not be `null`;
* an optional field may also be `null`.

No record may have one field twice, while in a map of names the last of two entries counts.
Fields that a record does not know are ignored.
-/

namespace NetLab

/-- What a record reader needs to know about a parsed value. -/
class Document (δ : Type) where
  /-- The text of a scalar, where a text is wanted. -/
  text? : δ → Option String
  /-- The word that names an alternative. -/
  word? : δ → Option String
  /-- The value stands for a missing one where a value is optional. -/
  isNull : δ → Bool
  /-- The items of a list. -/
  items? : δ → Option (List δ)
  /-- The names and values of a record or map, in the order written. -/
  entries? : δ → Option (List (String × δ))

namespace Document

variable {δ α : Type} [Document δ]

/-- The values that the entries give a name. -/
def named (name : String) (entries : List (String × δ)) : List δ :=
  (entries.filter fun entry => entry.1 = name).map Prod.snd

/-- A required field. -/
def field? (entries : List (String × δ)) (name : String) (read : δ → Option α) : Option α :=
  match named name entries with
  | [value] => read value
  | _ => none

/-- A field that may be missing and then has a default. -/
def orDefault? (entries : List (String × δ)) (name : String) (read : δ → Option α)
    (default : α) : Option α :=
  match named name entries with
  | [] => some default
  | [value] => read value
  | _ => none

/-- A reader of values that may be `null`. -/
def nullable (read : δ → Option α) (value : δ) : Option (Option α) :=
  if isNull value then some none else (read value).map some

/-- A field that may be missing or `null`. -/
def optional? (entries : List (String × δ)) (name : String) (read : δ → Option α) :
    Option (Option α) :=
  orDefault? entries name (nullable read) none

/-- A reader of lists. -/
def list? (read : δ → Option α) (value : δ) : Option (List α) := do
  (← items? value).mapM read

/-- A reader of maps; of two entries with one name the later counts. -/
def map? (read : δ → Option α) (value : δ) : Option (SortedMap String α) := do
  let entries ← (← entries? value).mapM fun entry => (read entry.2).map (Prod.mk entry.1)
  return .ofList entries

/-- A reader of maps of texts. -/
def texts? (value : δ) : Option StringMap := map? text? value

end Document

/-- JSON documents: a text is a string and nothing else, a word may also be the only member name
of an object whose value is `null`.  Records and maps are objects; an array that lists the fields of
a record in their order is refused. -/
instance : Document Json where
  text? := Json.asString?
  word?
    | .string word => some word
    | .object [(word, .null)] => some word
    | _ => none
  isNull value := value == .null
  items? := Json.asArray?
  entries? := Json.asObject?

end NetLab
