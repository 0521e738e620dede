import NetLab.Policy.Links
import NetLab.Reconcile.Pass

/-!
# The passes of a topology

The workload pass brings Deployments, VirtualMachines, Services and ConfigMaps to what is planned
for the nodes; the connectivity pass does the same for the network policies of the links.
-/

namespace NetLab

open Cluster Kube

/-- The scope of the workload pass. -/
def Scope.workloads (topology namespaceName : String) : Scope :=
  ⟨topology, namespaceName, Kind.workloads⟩

/-- The scope of the connectivity pass. -/
def Scope.connectivity (topology namespaceName : String) : Scope :=
  ⟨topology, namespaceName, [.networkPolicy]⟩

namespace Pass

/-- Takes a snapshot and goes on with it, unless that fails. -/
def begin {α : Type} (scope : Scope) (next : Pass → Program α) :
    Program (Except PassError α) :=
  (snapshot scope.topology ∅ scope.kinds).bind fun
    | .ok live => (next (start live)).bind fun value => .done (.ok value)
    | .error error => .done (.error error)

/-- The status of each node as the pass has seen its workload last. -/
def nodeStatus (pass : Pass) (plans : SortedMap String NodePlan) :
    SortedMap String NodeStatus :=
  plans.map fun _ plan =>
    .observe plan.workloadType (plan.workloadKey?.bind fun key => pass.live.get? key)

end Pass

/-- Applies the plans of all nodes in the order of their names, prunes, and looks at the nodes. -/
def reconcileWorkloads (topology namespaceName : String) (plans : SortedMap String NodePlan) :
    Program (Except PassError PassReport) :=
  let scope := Scope.workloads topology namespaceName
  Pass.begin scope fun pass => do
    let pass ← Program.forEach
      (fun (node, plan) => Pass.applyGroup scope (some plan.workloadType) node plan.objects)
      plans.entries pass
    let pass ← pass.prune scope
    return { pass.report with nodes := pass.nodeStatus plans }

/-- Applies the policies of a topology and prunes. -/
def reconcilePolicies (topology namespaceName : String) (policies : List PlannedObject) :
    Program (Except PassError PassReport) :=
  let scope := Scope.connectivity topology namespaceName
  Pass.begin scope fun pass => do
    let pass ← Pass.applyGroup scope none topology policies pass
    let pass ← pass.prune scope
    return pass.report

/-- Brings the policies of a topology to its links. -/
def reconcileConnectivity (t : Topology) (namespaceName : String) :
    Program (Except PassError PassReport) :=
  reconcilePolicies t.name namespaceName (t.policies namespaceName)

end NetLab
