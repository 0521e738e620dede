import NetLab.Document
import NetLab.Yaml.Resolution

/-!
# Nodes

What a YAML text is read to: scalars, sequences and mappings, and references to nodes that have a
name.  A scalar stays a text whatever it looks like; what it means is decided where it is used.
Only where a value is optional do the unquoted words for null mean that there is none.

A node may refer to one that it is itself a part of, so a document is no finite tree: a `Part` is a
node together with the named nodes, and a reference is looked up when the part is used.
-/

namespace NetLab.Yaml

/-- A node of a YAML document. -/
inductive Node where
  /-- A scalar, whether it was written without quotes, and its tag. -/
  | scalar (text : String) (plain : Bool) (tag : Option String)
  | sequence (items : List Node)
  | mapping (entries : List (Node × Node))
  /-- The node whose name has that number. -/
  | alias (number : Nat)
deriving Inhabited

namespace Node

/-- The tag of null. -/
def nullTag : String := "tag:yaml.org,2002:null"

/-- A node that was left out. -/
def empty (tag : Option String) : Node := .scalar "" true tag

/-- The text of a scalar. -/
def text? : Node → Option String
  | .scalar text _ _ => some text
  | _ => none

/-- The node was left out or written as an empty plain scalar. -/
def isEmpty : Node → Bool
  | .scalar text plain _ => plain && text = ""
  | _ => false

/-- The node stands for a missing value. -/
def isNull : Node → Bool
  | .scalar text plain tag =>
    plain &&
      match tag with
      | none => text = "" || isNullWord text.toList
      | some tag => tag = nullTag && isNullWord text.toList
  | _ => false

/-- The word that names an alternative: a scalar, or a tag of the document's own on nothing. -/
def word? : Node → Option String
  | .scalar text plain tag =>
    match tag.map String.toList with
    | some ('!' :: word) =>
      if plain && (text = "" || isNullWord text.toList) then some (String.ofList word) else none
    | _ => some text
  | _ => none

end Node

/-- A node that was given a name, and the number of the name. -/
structure Anchor where
  name : String
  number : Nat
  node : Node

/-- A node of a document, with the named nodes of the document, the last one first. -/
structure Part where
  anchors : List Anchor
  node : Node

namespace Part

/-- The node itself, or the one that it refers to: the last one whose name has that number. -/
def target (part : Part) : Node :=
  match part.node with
  | .alias number =>
    match part.anchors.find? fun anchor => anchor.number = number with
    | some anchor => anchor.node
    | none => part.node
  | node => node

/-- Another node of the same document. -/
def other (part : Part) (node : Node) : Part := { part with node }

/-- The items of a sequence; none where the node was left out. -/
def items? (part : Part) : Option (List Part) :=
  match part.target with
  | .sequence items => some (items.map part.other)
  | node => if node.isEmpty then some [] else none

/-- The entries of a mapping whose keys are scalars; none where the node was left out. -/
def entries? (part : Part) : Option (List (String × Part)) :=
  match part.target with
  | .mapping entries =>
    entries.mapM fun (key, value) => (part.other key).target.text?.map fun key => (key, part.other value)
  | node => if node.isEmpty then some [] else none

end Part

instance : Document Part where
  text? part := part.target.text?
  word? part := part.target.word?
  isNull part := part.target.isNull
  items? := Part.items?
  entries? := Part.entries?

end NetLab.Yaml
