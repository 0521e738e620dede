import NetLab.SortedMap

/-!
# Kinds and keys

The kinds of object the operator manages form a closed set.  A `Key` names an object of a
namespace.  Keys are ordered by kind first, in the order in which the kinds are declared here,
which puts what a workload mounts before the workload and what selects it after.
-/

namespace NetLab.Kube

/-- A kind of managed object, in the order of keys. -/
inductive Kind where
  | configMap
  | deployment
  | virtualMachine
  | service
  | networkPolicy
deriving DecidableEq, Repr

namespace Kind

/-- The place of a kind in the order of keys. -/
def rank : Kind → Nat
  | configMap => 0
  | deployment => 1
  | virtualMachine => 2
  | service => 3
  | networkPolicy => 4

theorem rank_injective {a b : Kind} (h : a.rank = b.rank) : a = b := by
  cases a <;> cases b <;> first | rfl | exact absurd h (by decide)

instance : Ord Kind := ⟨compareOn rank⟩

instance : Std.TransOrd Kind := inferInstanceAs (Std.TransCmp (compareOn rank))

instance : Std.LawfulEqOrd Kind where
  eq_of_compare {a b} h := by
    have h : compare a.rank b.rank = .eq := h
    exact rank_injective (Std.LawfulEqCmp.eq_of_compare h)

/-- All kinds, in the order of keys. -/
def all : List Kind := [configMap, deployment, virtualMachine, service, networkPolicy]

/-- The kinds that make up the workloads, in the order in which they are listed. -/
def workloads : List Kind := [deployment, service, configMap, virtualMachine]

/-- The name of a kind in manifests and keys. -/
def name : Kind → String
  | configMap => "ConfigMap"
  | deployment => "Deployment"
  | virtualMachine => "VirtualMachine"
  | service => "Service"
  | networkPolicy => "NetworkPolicy"

/-- The kind of that name. -/
def ofName? (text : String) : Option Kind := all.find? (·.name = text)

/-- The version of the API that serves a kind. -/
def apiVersion : Kind → String
  | configMap | service => "v1"
  | deployment => "apps/v1"
  | virtualMachine => "kubevirt.io/v1"
  | networkPolicy => "networking.k8s.io/v1"

/-- The name of a kind in request paths. -/
def plural : Kind → String
  | configMap => "configmaps"
  | deployment => "deployments"
  | virtualMachine => "virtualmachines"
  | service => "services"
  | networkPolicy => "networkpolicies"

theorem ofName?_name (kind : Kind) : ofName? kind.name = some kind := by
  cases kind <;> decide

end Kind

/-- What identifies an object within a namespace. -/
@[ext]
structure Key where
  kind : Kind
  name : String
deriving DecidableEq, Repr

namespace Key

instance : Ord Key := ⟨compareLex (compareOn kind) (compareOn name)⟩

instance : Std.TransOrd Key :=
  inferInstanceAs (Std.TransCmp (compareLex (compareOn kind) (compareOn name)))

instance : Std.LawfulEqOrd Key where
  eq_of_compare {a b} h := by
    have h : compareLex (compareOn kind) (compareOn name) a b = .eq := h
    simp only [compareLex, Ordering.then_eq_eq] at h
    have hkind : compare a.kind b.kind = .eq := h.1
    have hname : compare a.name b.name = .eq := h.2
    exact Key.ext (Std.LawfulEqCmp.eq_of_compare hkind) (Std.LawfulEqCmp.eq_of_compare hname)

/-- A key as it is shown: kind, slash, name. -/
def text (key : Key) : String := key.kind.name ++ "/" ++ key.name

/-- The key that a text shows: the kind ends at the first slash. -/
def ofText? (text : String) : Option Key :=
  let kind := text.toList.takeWhile (· ≠ '/')
  match text.toList.dropWhile (· ≠ '/') with
  | _ :: name => (Kind.ofName? (String.ofList kind)).map fun kind => ⟨kind, String.ofList name⟩
  | [] => none

end Key

end NetLab.Kube
