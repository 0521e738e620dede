import NetLab.Json.Canonical
import NetLab.Kube.Labels
import NetLab.Kube.Meta
import NetLab.Kube.Shapes

/-!
# Managed objects

A `Resource` is an object of one of the managed kinds: its type header, its metadata, and whatever
else its manifest holds.  Other writers add to the objects of a cluster (the API server fills in
defaults and addresses, controllers a status), so the rest is a JSON object rather than a record
of the few fields that the operator writes; it is a canonical one, so that equal objects are the
same.  For the kinds with a schema it is in the form in which the API server stores it
(`Schema.admit?`).

`Resource.ofJson?` reads a manifest and `Resource.toJson` writes one.
-/

namespace NetLab.Kube

/-- The type header of a manifest. -/
structure Header where
  apiVersion : String
  kind : String
deriving DecidableEq

/-- The header of a kind. -/
def Kind.header (kind : Kind) : Header := ⟨kind.apiVersion, kind.name⟩

/-- The members of a manifest state no other type than this. -/
def Header.admits (header : Header) (members : List (String × Json)) : Bool :=
  let admits (name value : String) : Bool :=
    match (Json.object members).get? name with
    | none => true
    | some text => text = .string value
  admits "apiVersion" header.apiVersion && admits "kind" header.kind

/-- An object of a managed kind. -/
@[ext]
structure Resource where
  kind : Kind
  /-- The type that the manifest states.  Only a virtual machine may lack one. -/
  header : Option Header
  metadata : Meta
  /-- The other members of the manifest, by name. -/
  body : List (String × Json)
  canonical : (Json.object body).Canonical
deriving DecidableEq

namespace Resource

/-- An object with the header of its kind. -/
def ofBody (kind : Kind) (metadata : Meta) (body : List (String × Json))
    (canonical : ∀ member ∈ body, member.2.Canonical) : Resource :=
  ⟨kind, some kind.header, metadata, Assoc.ofList body, .ofMembers canonical⟩

/-- The name of an object; a nameless one counts as named by the empty text. -/
def name (r : Resource) : String := r.metadata.name.getD ""

def key (r : Resource) : Key := ⟨r.kind, r.name⟩

/-- The value of a label. -/
def label? (r : Resource) (key : String) : Option String := r.metadata.label? key

/-- The object carries the owner label of a topology. -/
def ownedBy (r : Resource) (topology : String) : Bool :=
  r.label? Labels.topology = some topology

/-- A member of the manifest beside its type and metadata. -/
def get (r : Resource) (name : String) : Json := (Json.object r.body).get name

/-- The object with a member bound anew, to the normal form of the value. -/
def set (r : Resource) (name : String) (value : Json) : Resource :=
  { r with
    body := Assoc.insert name value.normal r.body
    canonical := r.canonical.insert (Json.canonical_normal value) }

/-- The object with its resource version replaced. -/
def withVersion (r : Resource) (version : Option String) : Resource :=
  { r with metadata := { r.metadata with resourceVersion := version } }

/-- The members of a manifest that are kept apart from its body. -/
def isReserved (name : String) : Bool :=
  name = "apiVersion" || name = "kind" || name = "metadata"

/-- The manifest of an object. -/
def toJson (r : Resource) : Json :=
  let header := match r.header with
    | some header => [("apiVersion", .string header.apiVersion), ("kind", .string header.kind)]
    | none => []
  .ofMembers (header ++ ("metadata", r.metadata.toJson) :: r.body)

/-- A manifest of a kind with a schema.  The type may be missing but not a different one. -/
def ofSchema? (kind : Kind) (fields : List Field) (members : List (String × Json)) :
    Option Resource := do
  if !kind.header.admits members then none
  let metadata ← Meta.ofMember? members
  let body ← Schema.admitFields? fields members
  return ofBody kind metadata (Json.normalMembers body) (Json.canonical_normalMembers body)

/-- A manifest without a schema: the type is kept if it is stated in full. -/
def ofMembers? (kind : Kind) (members : List (String × Json)) : Option Resource := do
  let metadata ← match (Json.object members).get? "metadata" with
    | none => some Meta.empty
    | some value => Meta.ofJson? value
  let header := match (Json.object members).get "apiVersion", (Json.object members).get "kind" with
    | .string apiVersion, .string kind => some (Header.mk apiVersion kind)
    | _, _ => none
  let body := members.filter fun entry => !isReserved entry.1
  return { ofBody kind metadata (Json.normalMembers body) (Json.canonical_normalMembers body) with
    header := header }

/-- The object that a manifest of this kind describes. -/
def ofJson? (kind : Kind) (value : Json) : Option Resource := do
  let members ← value.asObject?
  match Shapes.ofKind? kind with
  | some fields => ofSchema? kind fields members
  | none => ofMembers? kind members

end Resource

end NetLab.Kube
