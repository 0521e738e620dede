import NetLab.Reconcile.Error
import NetLab.Reconcile.Status

/-!
# What a pass reports

The changes that a pass made, the errors it met, and how the nodes were doing at its end.  A report
without errors is clean.  Conditions sum a report up for those who watch the topology.
-/

namespace NetLab

open Kube

/-- An object that was changed. -/
structure Change where
  key : Key
  namespaceName : String
  workloadType : Option WorkloadType
deriving DecidableEq

/-- The outcome of a pass. -/
structure PassReport where
  created : List Change
  updated : List Change
  deleted : List Change
  errors : List ResourceError
  nodes : SortedMap String NodeStatus
deriving DecidableEq

/-- A condition of a topology. -/
structure Condition where
  type : String
  status : String
  reason : String
  message : String
  observedGeneration : Option Int
deriving DecidableEq

namespace PassReport

/-- The report of a pass that did nothing. -/
def empty : PassReport := ⟨[], [], [], [], ∅⟩

instance : Inhabited PassReport := ⟨empty⟩

def isClean (report : PassReport) : Bool := report.errors.isEmpty

def changeCount (report : PassReport) : Nat :=
  report.created.length + report.updated.length + report.deleted.length

/-- Two reports as one; the later tells how the nodes are doing. -/
def merge (earlier later : PassReport) : PassReport where
  created := earlier.created ++ later.created
  updated := earlier.updated ++ later.updated
  deleted := earlier.deleted ++ later.deleted
  errors := earlier.errors ++ later.errors
  nodes := earlier.nodes.extend later.nodes

/-- The counts of a report. -/
def summary (report : PassReport) : String :=
  "created=" ++ toString report.created.length ++ " updated=" ++ toString report.updated.length
    ++ " deleted=" ++ toString report.deleted.length
    ++ " errors=" ++ toString report.errors.length

/-- The condition of that type after a pass: true if the pass was clean. -/
def condition (report : PassReport) (type : String) (generation : Option Int) : Condition :=
  if report.isClean then ⟨type, "True", "Reconciled", report.summary, generation⟩
  else
    ⟨type, "False", "ResourceErrors",
      report.summary ++ ": " ++
        String.intercalate "; " (report.errors.map ResourceError.message),
      generation⟩

end PassReport

end NetLab
