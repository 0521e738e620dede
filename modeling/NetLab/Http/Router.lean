import NetLab.Http.Target
import NetLab.Json.Printer

/-!
# The HTTP interface

Three pages: whether the operator is alive, its metrics, and the status of the last pass.  A page
can be read with `GET` or `HEAD`; any other method is refused.
-/

namespace NetLab.Http

/-- An answer to a request. -/
structure Response where
  status : Nat
  contentType : Option String
  body : String
deriving DecidableEq

/-- What the pages show. -/
structure Server where
  /-- The exported metrics, if a recorder is installed. -/
  metrics : Option String
  /-- The status page, once a pass has finished. -/
  status : Option Json

/-- The version of the operator. -/
def version : String := "0.1.0"

namespace Response

/-- An answer without content. -/
def bare (status : Nat) : Response := ⟨status, none, ""⟩

def ofJson (value : Json) : Response := ⟨200, some "application/json", value.compress⟩

/-- The answer without its body. -/
def head (response : Response) : Response := { response with body := "" }

end Response

namespace Server

/-- A server before the first pass. -/
def fresh (recorder : Bool) : Server := ⟨if recorder then some "" else none, none⟩

/-- The page that says that the operator is alive. -/
def health : Response :=
  .ofJson (.ofMembers [("status", .string "ok"), ("version", .string version)])

/-- The type of exported metrics. -/
def metricsType : String := "text/plain; version=0.0.4; charset=utf-8"

/-- The page of a path. -/
def page? (server : Server) (path : String) : Option Response :=
  match path with
  | "/health" => some health
  | "/metrics" => some <|
    match server.metrics with
    | some text => ⟨200, some metricsType, text⟩
    | none => ⟨503, some metricsType, "# metrics recorder not installed\n"⟩
  | "/api/status" => some <|
    match server.status with
    | some page => .ofJson page
    | none => ⟨404, some "text/plain; charset=utf-8", "no reconcile pass has completed yet"⟩
  | _ => none

/-- The answer to a request. -/
def answer (server : Server) (method : String) (target : Target) : Response :=
  match server.page? target.path with
  | none => .bare 404
  | some page =>
    if method = "GET" then page
    else if method = "HEAD" then page.head
    else .bare 405

end Server

end NetLab.Http
