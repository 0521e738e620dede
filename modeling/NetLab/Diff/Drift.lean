import NetLab.Diff.Subset
import NetLab.Kube.Resource

/-!
# Drift

`Resource.needsUpdate` decides whether a live object has to be replaced by the desired one.  What
the server fills in is no drift; what the operator owns outright is, also when it is only live:
labels, selectors and data are compared exactly, and a field that the operator has dropped must
not be kept.

`Resource.update` is the object to send: the desired one with what the server has assigned.
-/

namespace NetLab.Kube

open Json (isSubset)

namespace Drift

/-- A value that says something: neither `null` nor empty. -/
def isSet : Json → Bool
  | .null => false
  | .object members => !members.isEmpty
  | .array items => !items.isEmpty
  | _ => true

/-- The live value still has one of the fields that the desired value no longer sets. -/
def keepsDropped (desired live : Json) (fields : List String) : Bool :=
  fields.any fun field => !isSet (desired.get field) && isSet (live.get field)

/-- The fields of a pod that the operator owns. -/
def podFields : List String := ["volumes"]

/-- The fields of a container that the operator owns. -/
def containerFields : List String :=
  ["command", "args", "env", "ports", "volumeMounts", "resources"]

/-- The fields of resource requirements that the operator owns. -/
def resourceFields : List String := ["requests", "limits"]

/-- A live container keeps something that was dropped. -/
def containerKeepsDropped (desired live : Json) : Bool :=
  keepsDropped desired live containerFields ||
    keepsDropped (desired.get "resources") (live.get "resources") resourceFields

/-- A live pod differs from the desired one. -/
def pod (desired live : Json) : Bool :=
  !isSubset desired live || keepsDropped desired live podFields ||
    match desired.get "containers", live.get "containers" with
    | .array desired, .array live =>
      (desired.zip live).any fun (desired, live) => containerKeepsDropped desired live
    | _, _ => false

/-- A map of texts, or anything else read as an empty one. -/
def textsOrNone (value : Json) : List (String × Json) :=
  match value with
  | .object members => members
  | _ => []

/-- A live Deployment differs: in its pod template. -/
def deployment (desired live : Resource) : Bool :=
  let desired := (desired.get "spec").get "template"
  let live := (live.get "spec").get "template"
  let labels (template : Json) := textsOrNone (template.path ["metadata", "labels"])
  let annotations (template : Json) := template.path ["metadata", "annotations"]
  labels desired != labels live || !isSubset (annotations desired) (annotations live) ||
    pod (desired.get "spec") (live.get "spec")

/-- A live Service differs: in its ports, its selector or its type. -/
def service (desired live : Resource) : Bool :=
  let desired := desired.get "spec"
  let live := live.get "spec"
  let type (spec : Json) := ((spec.get "type").asString?).getD "ClusterIP"
  !isSubset (desired.get "ports") (live.get "ports") ||
    textsOrNone (desired.get "selector") != textsOrNone (live.get "selector") ||
    type desired != type live

/-- A live ConfigMap differs: in its data. -/
def configMap (desired live : Resource) : Bool :=
  textsOrNone (desired.get "data") != textsOrNone (live.get "data")

/-- A live VirtualMachine differs: in what is set, in the labels of its pod, or in resources that
were dropped. -/
def virtualMachine (desired live : Resource) : Bool :=
  let desired := desired.get "spec"
  let live := live.get "spec"
  let labels (spec : Json) := spec.path ["template", "metadata", "labels"]
  let resources (spec : Json) := spec.path ["template", "spec", "domain", "resources"]
  !isSubset desired live || labels desired != labels live ||
    keepsDropped (resources desired) (resources live) resourceFields

/-- A live NetworkPolicy differs in what is set. -/
def networkPolicy (desired live : Resource) : Bool :=
  !isSubset (desired.get "spec") (live.get "spec")

/-- The metadata of a live object differs: labels are compared exactly, other writers may add
annotations. -/
def metadata (desired live : Meta) : Bool :=
  desired.labels.getD ∅ != live.labels.getD ∅ ||
    !(desired.annotations.getD ∅).entries.all fun (name, value) =>
      (live.annotations.getD ∅).get? name = some value

end Drift

namespace Resource

/-- The live object has drifted from the desired one in something the operator owns. -/
def needsUpdate (desired live : Resource) : Bool :=
  Drift.metadata desired.metadata live.metadata ||
    if desired.kind = live.kind then
      match desired.kind with
      | .deployment => Drift.deployment desired live
      | .service => Drift.service desired live
      | .configMap => Drift.configMap desired live
      | .virtualMachine => Drift.virtualMachine desired live
      | .networkPolicy => Drift.networkPolicy desired live
    else true

/-- An object with a field of its spec as another object has it, present or not. -/
def withSpecField (r : Resource) (source : Resource) (field : String) : Resource :=
  match r.get "spec", (source.get "spec").get? field with
  | .object members, some value => r.set "spec" (.object (Assoc.insert field value members))
  | .object members, none => r.set "spec" (.object (Assoc.erase field members))
  | _, _ => r

/-- The desired object as it replaces the live one: with the version of the live object and, for
Services with a spec, the addresses that the server assigned. -/
def update (desired live : Resource) : Resource :=
  let update := desired.withVersion live.metadata.resourceVersion
  match desired.kind, live.kind, live.get "spec" with
  | .service, .service, .object _ =>
    (update.withSpecField live "clusterIP").withSpecField live "clusterIPs"
  | _, _, _ => update

end Resource

end NetLab.Kube
