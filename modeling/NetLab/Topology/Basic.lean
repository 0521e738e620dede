import NetLab.SortedMap

/-!
# Topologies

A topology names network nodes, the links between their interfaces, and how the nodes are to be
run.  This module has the types; `NetLab.Topology.Format` reads and writes them.
-/

namespace NetLab

/-- What a node runs as. -/
inductive WorkloadType where
  | container
  | vm
deriving DecidableEq, Repr, Inhabited

namespace WorkloadType

def name : WorkloadType → String
  | container => "container"
  | vm => "vm"

def ofName? : String → Option WorkloadType
  | "container" => some container
  | "vm" => some vm
  | _ => none

end WorkloadType

/-- How a topology, or an override in it, wants nodes to be run. -/
inductive ExecutionMode where
  | auto
  | container
  | vm
deriving DecidableEq, Repr, Inhabited

namespace ExecutionMode

def name : ExecutionMode → String
  | auto => "auto"
  | container => "container"
  | vm => "vm"

def ofName? : String → Option ExecutionMode
  | "auto" => some auto
  | "container" => some container
  | "vm" => some vm
  | _ => none

/-- The workload type that a mode pins, if it pins one. -/
def workloadType? : ExecutionMode → Option WorkloadType
  | auto => none
  | container => some .container
  | vm => some .vm

end ExecutionMode

/-- Requests and limits by resource name, such as `cpu` and `memory`. -/
structure ResourceSpec where
  requests : StringMap
  limits : StringMap
deriving DecidableEq, Inhabited

namespace ResourceSpec

/-- Requests for CPU and memory, without limits. -/
def ofRequests (cpu memory : String) : ResourceSpec :=
  ⟨.ofList [("cpu", cpu), ("memory", memory)], ∅⟩

def isEmpty (spec : ResourceSpec) : Bool := spec.requests.isEmpty && spec.limits.isEmpty

end ResourceSpec

/-- A node as a topology declares it. -/
structure NodeDefinition where
  kind : String
  image : String
  env : StringMap
  labels : StringMap
  startupConfig : Option String
  /-- Contents by path. -/
  files : StringMap
deriving DecidableEq, Inhabited

namespace NodeDefinition

/-- A node of a kind that runs an image. -/
def ofImage (kind image : String) : NodeDefinition := ⟨kind, image, ∅, ∅, none, ∅⟩

end NodeDefinition

/-- A link as it is declared: its endpoints, each written as node, colon, interface. -/
structure Link where
  endpoints : List String
deriving DecidableEq, Inhabited

/-- What a topology says about one node beside its definition. -/
structure NodeOverride where
  executionMode : ExecutionMode
  resources : Option ResourceSpec
  /-- Environment entries. -/
  config : StringMap
deriving DecidableEq, Inhabited

/-- What a topology says about the machines of its virtual nodes. -/
structure VmDefaults where
  memory : Option String
  cpu : Option String
  sshAuthorizedKeys : List String
deriving DecidableEq, Inhabited

/-- How the nodes of a topology are run. -/
structure NativeExecution where
  executionMode : ExecutionMode
  /-- The network plugin that connects the nodes. -/
  cni : Option String
  /-- Resources of nodes without an override of their own. -/
  resources : Option ResourceSpec
  nodeOverrides : SortedMap String NodeOverride
  vmDefaults : VmDefaults
deriving DecidableEq, Inhabited

/-- A network topology. -/
structure Topology where
  name : String
  nodes : SortedMap String NodeDefinition
  links : List Link
  native : NativeExecution
deriving DecidableEq, Inhabited

namespace Topology

/-- A topology without nodes, run in the default way. -/
def ofName (name : String) : Topology := ⟨name, ∅, [], default⟩

def withNode (t : Topology) (name : String) (definition : NodeDefinition) : Topology :=
  { t with nodes := t.nodes.insert name definition }

def withLink (t : Topology) (a b : String) : Topology :=
  { t with links := t.links ++ [⟨[a, b]⟩] }

end Topology

end NetLab
