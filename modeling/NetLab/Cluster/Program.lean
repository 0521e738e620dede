import NetLab.Cluster.Error
import NetLab.Kube.Resource

/-!
# Programs that call a cluster

A `Call` is one request to the API server about one namespace, and `Call.Answer` what comes back.
A `Program α` makes calls, each of which may depend on the answers before it, and ends with a value
of type `α`.  It is a tree: a call, and for each possible answer the program that follows.  So a
program says nothing about the cluster; what it does against one is given by `Program.run`, and
what it does between the calls of others by stepping through the tree.

Before every call a program may be interrupted (`Program.run`).
-/

namespace NetLab.Cluster

open Kube

/-- A request to the API server. -/
inductive Call where
  /-- The objects of a kind that carry the selected label. -/
  | list (kind : Kind) (selector : String)
  | get (key : Key)
  | create (object : Resource)
  /-- Replaces the object of that key, if it still has the version that the new one names. -/
  | replace (object : Resource)
  | delete (key : Key)
deriving DecidableEq

namespace Call

/-- What a call is answered with. -/
abbrev Answer : Call → Type
  | list _ _ => Except ClusterError (List Resource)
  | get _ | create _ | replace _ => Except ClusterError Resource
  | delete _ => Except ClusterError Unit

/-- The answer that a call has failed. -/
def refuse (error : ClusterError) : (call : Call) → call.Answer
  | list _ _ | get _ | create _ | replace _ | delete _ => .error error

/-- The kind that a call is about. -/
def kind : Call → Kind
  | list kind _ => kind
  | get key | delete key => key.kind
  | create object | replace object => object.kind

/-- The key that a call is about; a list is about a whole kind. -/
def key? : Call → Option Key
  | list _ _ => none
  | get key | delete key => some key
  | create object | replace object => some object.key

/-- The call may change the cluster. -/
def isWrite : Call → Bool
  | list _ _ | get _ => false
  | create _ | replace _ | delete _ => true

end Call

/-- A computation that calls a cluster. -/
inductive Program (α : Type) where
  | done (value : α)
  | call (request : Call) (next : request.Answer → Program α)

namespace Program

variable {α β σ : Type}

/-- The first program, and then the one that its value leads to. -/
def bind : Program α → (α → Program β) → Program β
  | done value, next => next value
  | call request answered, next => call request fun answer => (answered answer).bind next

instance : Monad Program where
  pure := done
  bind := bind

/-- One program after the other for the items of a list, each with the state the last one left. -/
def forEach {ι : Type} (step : ι → α → Program α) : List ι → α → Program α
  | [], state => done state
  | item :: rest, state => (step item state).bind (forEach step rest)

/-- Runs a program.  Before each call it is asked whether to stop; `answer` is what the cluster
does with a call, and an answer that never comes stops the program as well.  The result is `none`
if the program was stopped. -/
def run (stopped : σ → Bool) (answer : (call : Call) → σ → Option call.Answer × σ) :
    Program α → σ → Option α × σ
  | done value, state => (some value, state)
  | call request next, state =>
    if stopped state then (none, state)
    else
      match answer request state with
      | (none, state) => (none, state)
      | (some result, state) => (next result).run stopped answer state

end Program

end NetLab.Cluster
