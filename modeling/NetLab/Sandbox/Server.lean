import NetLab.Cluster.Program

/-!
# A server in memory

`Sandbox` is an API server that keeps its objects in memory: it numbers every write, gives Services
an address, refuses to create what is there and to replace what has changed, and can fill in
defaults as a real server does (`Resource.admitted`).

It can also misbehave on purpose.  A `Fault` is set for calls of one verb and one target; when such
a call comes, the fault removes or plants an object, keeps the call from ever being answered, or
makes it fail.
-/

namespace NetLab

open Cluster Kube

namespace Json

/-- The value with the value at the end of a path changed, where there is one. -/
def modifyAt (change : Json → Json) : List String → Json → Json
  | [], value => change value
  | name :: rest, value =>
    match value.get? name with
    | some member => value.set name (modifyAt change rest member)
    | none => value

/-- An object with a member added, unless it has one of that name. -/
def setDefault (name : String) (member value : Json) : Json :=
  match value with
  | .object _ => if value.get name = .null then value.set name member else value
  | _ => value

end Json

namespace Sandbox

/-! ## Admission -/

/-- A Service with a spec and the next address, unless it has one. -/
def withAddress (addresses : Nat) (object : Resource) : Resource × Nat :=
  match object.kind, object.get "spec" with
  | .service, .object members =>
    let spec := Json.object members
    if spec.get "clusterIP" = .null then
      let address := "10.96.0." ++ toString (addresses + 1)
      (object.set "spec"
        ((spec.set "clusterIP" (.string address)).set "clusterIPs" (.ofStrings [address])),
        addresses + 1)
    else (object, addresses)
  | _, _ => (object, addresses)

/-- The object with an annotation. -/
def annotated (name value : String) (object : Resource) : Resource :=
  let annotations := (object.metadata.annotations.getD ∅).insert name value
  { object with metadata := { object.metadata with annotations := some annotations } }

/-- A pod with the defaults of a server. -/
def podDefaults (pod : Json) : Json :=
  let container := Json.setDefault "terminationMessagePath" (.string "/dev/termination-log")
  let containers (value : Json) : Json :=
    match value with
    | .array items => .array (items.map container)
    | value => value
  Json.modifyAt containers ["containers"]
    (Json.setDefault "dnsPolicy" (.string "ClusterFirst") pod)

/-- An object with the defaults and the status that a server fills in. -/
def admitted (object : Resource) : Resource :=
  match object.kind with
  | .deployment =>
    let object := annotated "deployment.kubernetes.io/revision" "1" object
    let object := match object.get "spec" with
      | .null => object
      | spec => object.set "spec" (Json.modifyAt podDefaults ["template", "spec"] spec)
    object.set "status" (.ofMembers [("replicas", .nat 1)])
  | .service =>
    match object.get "spec" with
    | .null => object
    | spec => object.set "spec" (Json.setDefault "sessionAffinity" (.string "None") spec)
  | .virtualMachine =>
    let spec := object.get "spec"
    match spec.path ["template", "spec", "domain"] with
    | .object _ =>
      let machine := Json.ofMembers [("type", .string "q35")]
      let spec := Json.modifyAt (·.set "machine" machine) ["template", "spec", "domain"] spec
      (object.set "spec" spec).set "status"
        (.ofMembers [("created", .bool true), ("ready", .bool false)])
    | _ => object
  | .configMap | .networkPolicy => object

/-! ## State -/

/-- What identifies an object among all namespaces. -/
@[ext]
structure Address where
  namespaceName : String
  key : Key
deriving DecidableEq, Repr

namespace Address

instance : Ord Address := ⟨compareLex (compareOn namespaceName) (compareOn key)⟩

instance : Std.TransOrd Address :=
  inferInstanceAs (Std.TransCmp (compareLex (compareOn namespaceName) (compareOn key)))

instance : Std.LawfulEqOrd Address where
  eq_of_compare {a b} h := by
    have h : compareLex (compareOn namespaceName) (compareOn key) a b = .eq := h
    simp only [compareLex, Ordering.then_eq_eq] at h
    have hname : compare a.namespaceName b.namespaceName = .eq := h.1
    have hkey : compare a.key b.key = .eq := h.2
    exact Address.ext (Std.LawfulEqCmp.eq_of_compare hname) (Std.LawfulEqCmp.eq_of_compare hkey)

end Address

/-- A fault that is set for some calls. -/
structure Fault where
  verb : String
  /-- The key that a call is about, the kind for a list, or a star for any. -/
  target : String
  /-- How many more times the fault occurs; without a number it stays. -/
  times : Option Nat
  /-- The object that the call is about is gone. -/
  remove : Bool
  /-- An object that appears. -/
  plant : Option Resource
  /-- The call is never answered, and whoever made it is told to stop. -/
  hang : Bool
  /-- The call fails. -/
  error : Option ClusterError

end Sandbox

/-- A server in memory. -/
structure Sandbox where
  objects : SortedMap Sandbox.Address Resource
  /-- The number of writes. -/
  versions : Nat
  /-- The number of addresses given out. -/
  addresses : Nat
  faults : List Sandbox.Fault
  /-- The calls so far, as they are shown. -/
  log : List String
  /-- The number of calls after which whoever makes them is told to stop. -/
  stopAfter : Option Nat
  /-- Whoever makes the calls is told to stop. -/
  stopped : Bool
  /-- Defaults are filled in. -/
  admits : Bool
  /-- Lists show all objects of their kind, whatever the selector says. -/
  ignoresSelector : Bool

namespace Sandbox

/-- A server without objects. -/
def empty (admits ignoresSelector : Bool) : Sandbox where
  objects := ∅
  versions := 0
  addresses := 0
  faults := []
  log := []
  stopAfter := none
  stopped := false
  admits := admits
  ignoresSelector := ignoresSelector

/-- Writes an object: it gets a version of its own, an address and the defaults. -/
def store (s : Sandbox) (namespaceName : String) (object : Resource) : Resource × Sandbox :=
  let versions := s.versions + 1
  let (object, addresses) :=
    withAddress s.addresses (object.withVersion (some (toString versions)))
  let object := if s.admits then admitted object else object
  (object, { s with
    objects := s.objects.insert ⟨namespaceName, object.key⟩ object
    versions := versions
    addresses := addresses })

/-- Removes an object. -/
def remove (s : Sandbox) (namespaceName : String) (key : Key) : Sandbox :=
  { s with objects := s.objects.erase ⟨namespaceName, key⟩ }

/-- The object of a key. -/
def object? (s : Sandbox) (namespaceName : String) (key : Key) : Option Resource :=
  s.objects.get? ⟨namespaceName, key⟩

/-! ## Calls -/

/-- The label and the value that a selector asks for. -/
def selected? (selector : String) : Option (String × String) :=
  match selector.toList.dropWhile (· ≠ '=') with
  | _ :: value => some (String.ofList (selector.toList.takeWhile (· ≠ '=')), String.ofList value)
  | [] => none

/-- An object carries the label that a selector asks for. -/
def isSelected (selector : String) (object : Resource) : Bool :=
  match selected? selector with
  | some (label, value) => object.label? label = some value
  | none => false

/-- The verb of a call. -/
def verb : Call → String
  | .list _ _ => "list"
  | .get _ => "get"
  | .create _ => "create"
  | .replace _ => "replace"
  | .delete _ => "delete"

/-- What a call is about: a key, or a kind. -/
def target (call : Call) : String :=
  match call.key? with
  | some key => key.text
  | none => call.kind.name

/-- A call as it is shown in the log. -/
def line (namespaceName : String) (call : Call) : String :=
  let text := verb call ++ " " ++ namespaceName ++ " " ++ target call
  match call with
  | .list _ selector => text ++ " " ++ selector
  | .replace object => text ++ " rv=" ++ object.metadata.resourceVersion.getD "none"
  | _ => text

/-- The effect of a call without faults. -/
def perform (s : Sandbox) (namespaceName : String) : (call : Call) → call.Answer × Sandbox
  | .list kind selector =>
    let found := s.objects.entries.filter fun (address, object) =>
      address.namespaceName = namespaceName && address.key.kind = kind &&
        (s.ignoresSelector || isSelected selector object)
    (.ok (found.map Prod.snd), s)
  | .get key =>
    match s.object? namespaceName key with
    | some object => (.ok object, s)
    | none => (.error (.notFound key.text), s)
  | .create object =>
    match s.object? namespaceName object.key with
    | some _ => (.error (.alreadyExists object.key.text), s)
    | none =>
      let (stored, s) := s.store namespaceName object
      (.ok stored, s)
  | .replace object =>
    match s.object? namespaceName object.key with
    | none => (.error (.notFound object.key.text), s)
    | some current =>
      if current.metadata.resourceVersion ≠ object.metadata.resourceVersion then
        (.error (.conflict ("the object " ++ object.key.text ++ " has been modified")), s)
      else
        let (stored, s) := s.store namespaceName object
        (.ok stored, s)
  | .delete key =>
    match s.object? namespaceName key with
    | some _ => (.ok (), s.remove namespaceName key)
    | none => (.error (.notFound key.text), s)

/-- The first fault that is set for a call, and the faults that are left once it has occurred. -/
def takeFault? (call : Call) : List Fault → Option (Fault × List Fault)
  | [] => none
  | fault :: rest =>
    if fault.verb = verb call && (fault.target = target call || fault.target = "*") then
      match fault.times with
      | none => some (fault, fault :: rest)
      | some times =>
        some (fault, if times ≤ 1 then rest else { fault with times := some (times - 1) } :: rest)
    else (takeFault? call rest).map fun (found, others) => (found, fault :: others)

/-- Logs a call, and tells to stop if it was the last one allowed. -/
def enter (s : Sandbox) (namespaceName : String) (call : Call) : Sandbox :=
  let s := { s with log := s.log ++ [line namespaceName call] }
  match s.stopAfter with
  | none => s
  | some count =>
    if count ≤ 1 then { s with stopAfter := none, stopped := true }
    else { s with stopAfter := some (count - 1) }

/-- What the server does with a call in a namespace. -/
def answer (namespaceName : String) (call : Call) (s : Sandbox) : Option call.Answer × Sandbox :=
  let s := s.enter namespaceName call
  match takeFault? call s.faults with
  | none =>
    let (result, s) := s.perform namespaceName call
    (some result, s)
  | some (fault, faults) =>
    let s := { s with faults := faults }
    let s := match fault.remove, call.key? with
      | true, some key => s.remove namespaceName key
      | _, _ => s
    let s := match fault.plant with
      | some object => (s.store namespaceName object).2
      | none => s
    if fault.hang then (none, { s with stopped := true })
    else
      match fault.error with
      | some error => (some (call.refuse error), s)
      | none =>
        let (result, s) := s.perform namespaceName call
        (some result, s)

/-- Runs a program in a namespace.  It is told to stop after the given number of calls. -/
def run {α : Type} (s : Sandbox) (namespaceName : String) (stopAfter : Option Nat)
    (program : Program α) : Option α × Sandbox :=
  let s := { s with log := [], stopAfter := stopAfter, stopped := stopAfter = some 0 }
  program.run Sandbox.stopped (answer namespaceName) s

end Sandbox

end NetLab
