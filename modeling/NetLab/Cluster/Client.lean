import NetLab.Cluster.Program
import NetLab.Http.Target
import NetLab.Json.Parser
import NetLab.Json.Printer
import NetLab.Text.Encoding

/-!
# Calls over HTTP

Each call is one request to the API server.  `Call.request?` is the request of a call and
`Call.answer` reads the response; `Client.ensureNamespace` and `Client.healthCheck` are the two
questions beside the calls.

A status from 400 on is a failure, which the body describes; what the body says counts, not the
status of the response.  A body that describes nothing is quoted in the failure.
-/

namespace NetLab.Cluster

open Kube Http

/-- A request to the API server. -/
structure Request where
  method : String
  target : Target
  body : Option Json
deriving DecidableEq

/-- What the API server responds. -/
structure Reply where
  status : Nat
  body : String
deriving DecidableEq

namespace Request

/-- A request whose target is the given text, if that is a valid target. -/
def ofText? (method text : String) (body : Option Json) : Option Request :=
  (Target.ofText? false text).map fun target => ⟨method, target, body⟩

end Request

namespace Client

/-- The path of the objects of a kind in a namespace. -/
def collection (namespaceName : String) (kind : Kind) : String :=
  let root := match kind with
    | .service | .configMap => "/api/v1"
    | kind => "/apis/" ++ kind.apiVersion
  root ++ "/namespaces/" ++ namespaceName ++ "/" ++ kind.plural

/-- The path of one object; there is none without a name. -/
def member? (namespaceName : String) (key : Key) : Option String :=
  if key.name = "" then none
  else some (collection namespaceName key.kind ++ "/" ++ key.name)

/-- The failure that a reply reports. -/
def failure (reply : Reply) : Failure :=
  let described := do
    let value ← Json.parse? reply.body
    let _ ← value.asObject?
    let _ ← (value.get "status").asString?
    let code ← (value.get "code").asIntIn? 0 65535
    let text (name : String) : Option String :=
      match value.get? name with
      | none => some ""
      | some member => member.asString?
    return Failure.mk code.toNat (← text "reason") (← text "message")
  described.getD ⟨reply.status, "Failed to parse error data", Text.quote reply.body⟩

/-- Reads the body of a reply, unless that reports a failure. -/
def read {α : Type} (body? : Json → Option α) (reply : Reply) : Except ClusterError α :=
  if 400 ≤ reply.status ∧ reply.status < 600 then .error (.ofFailure (failure reply))
  else
    match (Json.parse? reply.body).bind body? with
    | some value => .ok value
    | none => .error .client

/-- The metadata of a list. -/
def listMetadata : Schema := .record [
  Schema.opt "continue" .text, Schema.opt "remainingItemCount" Schema.int64,
  Schema.opt "resourceVersion" .text, Schema.opt "selfLink" .text]

/-- The objects of a list. -/
def items? (kind : Kind) (value : Json) : Option (List Resource) := do
  let members ← value.asObject?
  let _ ← listMetadata.admit? (← Assoc.find? "metadata" members)
  match ← Assoc.find? "items" members with
  | .null => return []
  | items => (← items.asArray?).mapM (Resource.ofJson? kind)

/-- A member may be missing; if it is there, it passes the test. -/
def missingOr (value : Json) (name : String) (test : Json → Bool) : Bool :=
  (value.get? name).all test

/-- A body that tells how a request went. -/
def isStatus (value : Json) : Bool :=
  let isText (value : Json) : Bool := value.asString?.isSome
  missingOr value "status"
      (fun status => status = .null || status = .string "Success" || status = .string "Failure") &&
    missingOr value "code" (fun code => (code.asIntIn? 0 65535).isSome) &&
    missingOr value "message" isText && missingOr value "reason" isText &&
    missingOr value "details" fun details =>
      details = .null ||
        (details.asObject?.isSome &&
          ["name", "group", "kind", "uid"].all fun name => missingOr details name isText)

/-- A body that says that an object was deleted: a status, or the object itself. -/
def deleted? (kind : Kind) (value : Json) : Option Unit :=
  if value.get "kind" = .string "Status" then if isStatus value then some () else none
  else (Resource.ofJson? kind value).map fun _ => ()

end Client

namespace Call

open Client

/-- The request of a call; none if its key or namespace makes no valid target. -/
def request? (namespaceName : String) : Call → Option Request
  | list kind selector =>
    Request.ofText? "GET"
      (collection namespaceName kind ++ "?&labelSelector=" ++ Text.formEncode selector) none
  | get key => do Request.ofText? "GET" (← member? namespaceName key) none
  | create object =>
    Request.ofText? "POST" (collection namespaceName object.kind ++ "?") (some object.toJson)
  | replace object => do
    Request.ofText? "PUT" ((← member? namespaceName object.key) ++ "?") (some object.toJson)
  | delete key => do
    Request.ofText? "DELETE" ((← member? namespaceName key) ++ "?") (some (.object []))

/-- The answer to a call that a reply carries. -/
def answer (reply : Reply) : (call : Call) → call.Answer
  | list kind _ => read (items? kind) reply
  | get key => read (Resource.ofJson? key.kind) reply
  | create object | replace object => read (Resource.ofJson? object.kind) reply
  | delete key => read (deleted? key.kind) reply

end Call

namespace Client

/-- The type of namespaces. -/
def namespaceHeader : Header := ⟨"v1", "Namespace"⟩

/-- The manifest of a namespace for simulations. -/
def namespaceManifest (namespaceName : String) : Json :=
  .ofMembers [
    ("apiVersion", .string namespaceHeader.apiVersion),
    ("kind", .string namespaceHeader.kind),
    ("metadata", .ofMembers [
      ("name", .string namespaceName),
      ("labels", .ofStringMap (.ofList [
        (Labels.managedBy, Labels.manager), (Labels.namespaceType, "simulation")]))])]

/-- The fields of a namespace. -/
def namespaceFields : List Field := [
  Schema.opt "spec" (.record [Schema.opt "finalizers" (.list .text)]),
  Schema.opt "status" (.record [
    Schema.opt "conditions" Shapes.conditions, Schema.opt "phase" .text])]

/-- The request that creates the namespace. -/
def namespaceRequest? (namespaceName : String) : Option Request :=
  Request.ofText? "POST" "/api/v1/namespaces?" (some (namespaceManifest namespaceName))

/-- A body that describes a namespace. -/
def createdNamespace? (value : Json) : Option Unit := do
  let members ← value.asObject?
  if !namespaceHeader.admits members then none
  let _ ← Meta.ofMember? members
  let _ ← Schema.admitFields? namespaceFields members

/-- The namespace exists: it was created, or it was there already. -/
def ensureNamespace (reply : Reply) : Except ClusterError Unit :=
  match read createdNamespace? reply with
  | .error (.alreadyExists _) | .error (.conflict _) => .ok ()
  | answer => answer

/-- The request that asks for the version of the server. -/
def versionRequest? : Option Request := Request.ofText? "GET" "/version" none

/-- What a server tells about its version. -/
def versionInfo : Schema := .record <|
  ["buildDate", "compiler", "gitCommit", "gitTreeState", "gitVersion", "goVersion", "major",
    "minor", "platform"].map fun name => Schema.opt name .text

/-- The server tells its version. -/
def healthCheck (reply : Reply) : Except ClusterError Unit :=
  read (fun value => (versionInfo.admit? value).map fun _ => ()) reply

end Client

end NetLab.Cluster
