import NetLab.Cluster.Program
import NetLab.Diff.Drift
import NetLab.Reconcile.Order
import NetLab.Reconcile.Report

/-!
# Reconcile passes

One pass brings the objects of a topology in a namespace to what is planned:

1. `Pass.snapshot` lists each kind of the pass once.  Objects of other owners are dropped.  A list
   that fails ends the pass.
2. `Pass.applyGroup` applies the objects of one owner after those they depend on: it creates what
   is missing, replaces what has drifted, and leaves the rest alone.
3. `Pass.prune` deletes the objects of the snapshot that nobody planned, dependents first.

A failure about one object is recorded and does not end the pass.  Nothing is tried again; that is
left to the next pass.
-/

namespace NetLab

open Cluster Kube

/-- What a pass is about. -/
structure Scope where
  topology : String
  namespaceName : String
  /-- The kinds that the pass lists, applies and prunes. -/
  kinds : List Kind

/-- A pass under way. -/
structure Pass where
  /-- The snapshot, kept current with what the pass writes. -/
  live : SortedMap Key Resource
  /-- The keys that were planned. -/
  planned : List Key
  /-- The keys that this pass found or put in order. -/
  ready : List Key
  report : PassReport

namespace Pass

/-- A pass that starts from a snapshot. -/
def start (live : SortedMap Key Resource) : Pass := ⟨live, [], [], .empty⟩

/-! ## Bookkeeping -/

/-- The pass with an error recorded. -/
def fail (pass : Pass) (error : ResourceError) : Pass :=
  { pass with report := { pass.report with errors := pass.report.errors ++ [error] } }

/-- The pass with a key in order. -/
def markReady (pass : Pass) (key : Key) : Pass := { pass with ready := key :: pass.ready }

/-- The pass with the object that is live under a key. -/
def observe (pass : Pass) (key : Key) (object : Resource) : Pass :=
  { pass with live := pass.live.insert key object }

/-- The pass with a change recorded. -/
def record (pass : Pass) (action : Action) (change : Change) : Pass :=
  let report := pass.report
  let report := match action with
    | .create => { report with created := report.created ++ [change] }
    | .update => { report with updated := report.updated ++ [change] }
    | .delete => { report with deleted := report.deleted ++ [change] }
  { pass with report }

/-- The object of a key exists: it was put in order, or it is in the snapshot.  A failed update
leaves an object where it is. -/
def exists? (pass : Pass) (key : Key) : Bool := pass.ready.contains key || pass.live.contains key

/-! ## Snapshot -/

/-- The snapshot with the listed objects that belong to the topology. -/
def addOwned (topology : String) (live : SortedMap Key Resource) (items : List Resource) :
    SortedMap Key Resource :=
  (items.filter (·.ownedBy topology)).foldl (fun live item => live.insert item.key item) live

/-- Lists some kinds.  A cluster that does not serve machines has none. -/
def snapshot (topology : String) (live : SortedMap Key Resource) :
    List Kind → Program (Except PassError (SortedMap Key Resource))
  | [] => .done (.ok live)
  | kind :: rest =>
    .call (.list kind (Labels.ownerSelector topology)) fun
      | .ok items => snapshot topology (addOwned topology live items) rest
      | .error (.notFound message) =>
        if kind = .virtualMachine then snapshot topology live rest
        else .done (.error (.list kind (.notFound message)))
      | .error error => .done (.error (.list kind error))

/-! ## Applying -/

section

variable (scope : Scope) (type? : Option WorkloadType)

/-- The change of an object of the pass. -/
def change (key : Key) : Change := ⟨key, scope.namespaceName, type?⟩

/-- The object of a key was there before its creation.  It counts as in order only if the
topology owns it. -/
def adopt (key : Key) (pass : Pass) : Program Pass :=
  .call (.get key) fun
    | .ok existing =>
      if existing.ownedBy scope.topology then .done ((pass.observe key existing).markReady key)
      else .done (pass.fail (.nameTaken key (existing.label? Labels.topology)))
    | .error error => .done (pass.fail (.api key .create error))

/-- Creates an object. -/
def create (object : Resource) (pass : Pass) : Program Pass :=
  .call (.create object) fun
    | .ok created =>
      .done (((pass.record .create (change scope type? object.key)).observe object.key
        created).markReady object.key)
    | .error (.alreadyExists _) => adopt scope object.key pass
    | .error error => .done (pass.fail (.api object.key .create error))

/-- Replaces a live object. -/
def replace (object live : Resource) (pass : Pass) : Program Pass :=
  .call (.replace (object.update live)) fun
    | .ok replaced =>
      .done (((pass.record .update (change scope type? object.key)).observe object.key
        replaced).markReady object.key)
    | .error (.conflict message) => .done (pass.fail (.conflict object.key message))
    | .error error => .done (pass.fail (.api object.key .update error))

/-- Applies one object: nothing is done while something it depends on does not exist. -/
def applyObject (planned : PlannedObject) (pass : Pass) : Program Pass :=
  match planned.dependencies.find? fun dependency => !pass.exists? dependency with
  | some dependency => .done (pass.fail (.dependencyNotReady planned.key dependency))
  | none =>
    match pass.live.get? planned.key with
    | none => create scope type? planned.object pass
    | some live =>
      if planned.object.needsUpdate live then replace scope type? planned.object live pass
      else .done (pass.markReady planned.key)

/-- Applies the objects of one owner.  They are planned whatever happens; none is applied if one
is of a kind that the pass does not handle, or if their dependencies form a cycle. -/
def applyGroup (owner : String) (objects : List PlannedObject) (pass : Pass) : Program Pass :=
  let pass := { pass with planned := pass.planned ++ objects.map PlannedObject.key }
  match objects.find? fun planned => !scope.kinds.contains planned.object.kind with
  | some planned => .done (pass.fail (.unsupportedKind owner planned.object.kind))
  | none =>
    match PlannedObject.applyOrder? objects with
    | none => .done (pass.fail (.dependencyCycle owner))
    | some order => Program.forEach (applyObject scope type?) order pass

end

/-! ## Pruning -/

/-- The live objects that nobody planned, in descending order of keys. -/
def unwanted (pass : Pass) : List (Key × Resource) :=
  (pass.live.entries.filter fun (key, _) => !pass.planned.contains key).reverse

/-- The workload type that an object states. -/
def statedType? (object : Resource) : Option WorkloadType :=
  (object.label? Labels.workloadType).bind WorkloadType.ofName?

/-- Deletes one object.  One that is gone already counts as deleted. -/
def delete (scope : Scope) (entry : Key × Resource) (pass : Pass) : Program Pass :=
  let (key, object) := entry
  let deleted := pass.record .delete (change scope (statedType? object) key)
  .call (.delete key) fun
    | .ok () => .done deleted
    | .error (.notFound _) => .done deleted
    | .error error => .done (pass.fail (.api key .delete error))

/-- Deletes what nobody planned. -/
def prune (scope : Scope) (pass : Pass) : Program Pass :=
  Program.forEach (delete scope) pass.unwanted pass

end Pass

end NetLab
