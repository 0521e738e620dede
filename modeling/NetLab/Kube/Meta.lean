import NetLab.Json.Basic

/-!
# Object metadata

What the operator reads and writes of an object's metadata.  The resource version belongs to the
API server: it changes with every write, and a replace must name the version it replaces.
-/

namespace NetLab.Kube

/-- The metadata of an object. -/
structure Meta where
  name : Option String
  namespaceName : Option String
  labels : Option StringMap
  annotations : Option StringMap
  resourceVersion : Option String
  uid : Option String
deriving DecidableEq

namespace Meta

/-- Metadata that says nothing. -/
def empty : Meta := ⟨none, none, none, none, none, none⟩

instance : Inhabited Meta := ⟨empty⟩

/-- The value of a label. -/
def label? (m : Meta) (key : String) : Option String := m.labels.bind (·.get? key)

/-- Metadata as it is written: without the parts that are missing. -/
def toJson (m : Meta) : Json :=
  .ofOptional [
    ("name", m.name.map .string),
    ("namespace", m.namespaceName.map .string),
    ("labels", m.labels.map Json.ofStringMap),
    ("annotations", m.annotations.map Json.ofStringMap),
    ("resourceVersion", m.resourceVersion.map .string),
    ("uid", m.uid.map .string)]

/-- An optional field: `null` counts as missing. -/
def optional? {α : Type} (value : Json) (name : String) (read : Json → Option α) :
    Option (Option α) :=
  match value.get name with
  | .null => some none
  | member => (read member).map some

/-- The metadata that an object writes. -/
def ofJson? (value : Json) : Option Meta := do
  let _ ← value.asObject?
  return {
    name := ← optional? value "name" Json.asString?
    namespaceName := ← optional? value "namespace" Json.asString?
    labels := ← optional? value "labels" Json.asStringMap?
    annotations := ← optional? value "annotations" Json.asStringMap?
    resourceVersion := ← optional? value "resourceVersion" Json.asString?
    uid := ← optional? value "uid" Json.asString? }

/-- The metadata among the members of an object; `null` or none at all says nothing. -/
def ofMember? (members : List (String × Json)) : Option Meta :=
  match (Json.object members).get "metadata" with
  | .null => some empty
  | value => ofJson? value

end Meta

end NetLab.Kube
