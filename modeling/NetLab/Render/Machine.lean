import NetLab.Render.CloudInit
import NetLab.Render.Context
import NetLab.Text.LowerCase

/-!
# Nodes as machines

A node that runs as a machine is a VirtualMachine.  Its memory and CPU come from the first of the
node's own requests, the defaults of the topology, what its kind is known to need, and a base
size (`MachineSize.ofNode`).  It has one interface on the pod network and one more for each end of
a link at the node.
-/

namespace NetLab

open Kube

/-- The memory, CPU and limits of a machine. -/
structure MachineSize where
  memory : String
  cpu : String
  limits : StringMap
deriving DecidableEq

namespace MachineSize

/-- The memory and CPU that kinds of routers and firewalls are known to need. -/
def ofKind? (kind : String) : Option (String × String) :=
  match Text.lower kind with
  | "vyos" | "opnsense" | "pfsense" => some ("2Gi", "2")
  | "csr1000v" | "vmx" => some ("4Gi", "2")
  | _ => none

/-- The size of a node's machine. -/
def ofNode (node : NodeConfig) (defaults : VmDefaults) : MachineSize :=
  let request (name : String) := node.resources.bind fun spec => spec.requests.get? name
  let known := ofKind? node.kind
  { memory := (request "memory" <|> defaults.memory <|> known.map Prod.fst).getD "1Gi"
    cpu := (request "cpu" <|> defaults.cpu <|> known.map Prod.snd).getD "1"
    limits := (node.resources.map ResourceSpec.limits).getD ∅ }

/-- The resources of a machine. -/
def requirements (size : MachineSize) : Json :=
  .ofOptional [
    ("requests", some (.ofMembers [("memory", .string size.memory), ("cpu", .string size.cpu)])),
    ("limits", if size.limits.isEmpty then none else some (.ofStringMap size.limits))]

@[simp]
theorem canonical_requirements (size : MachineSize) : size.requirements.Canonical := by
  simp [requirements]

end MachineSize

namespace NodeContext

/-- A disk of a machine. -/
def disk (name : String) (serial : Option String) : Json :=
  .ofOptional [
    ("name", some (.string name)),
    ("serial", serial.map .string),
    ("disk", some (.ofMembers [("bus", .string "virtio")]))]

/-- The disks: the image, the user data, and the bundle if there is one. -/
def disks (bundle? : Option ConfigBundle) : List Json :=
  disk "containerdisk" none :: disk "cloudinitdisk" none ::
    (bundle?.map fun _ => disk ConfigBundle.volumeName (some "NSCONFIG")).toList

theorem canonical_disks (bundle? : Option ConfigBundle) :
    ∀ item ∈ disks bundle?, item.Canonical := by
  simp [disks, disk]

/-- The volumes behind the disks. -/
def volumes (image userData : String) (bundle? : Option ConfigBundle) : List Json :=
  .ofMembers [
    ("name", .string "containerdisk"),
    ("containerDisk", .ofMembers [("image", .string image)])] ::
  .ofMembers [
    ("name", .string "cloudinitdisk"),
    ("cloudInitNoCloud", .ofMembers [("userData", .string userData)])] ::
  (bundle?.map ConfigBundle.volume).toList

theorem canonical_volumes (image userData : String) (bundle? : Option ConfigBundle) :
    ∀ item ∈ volumes image userData bundle?, item.Canonical := by
  simp [volumes]

/-- The name of the interface for the link of that number, counted from one. -/
def linkName (number : Nat) : String := "net" ++ toString number

/-- The numbers of the node's links. -/
def linkNumbers (ctx : NodeContext) : List Nat := List.range' 1 ctx.node.interfaces.length

/-- The interfaces: the pod network, then a bridge for each link. -/
def interfaces (ctx : NodeContext) : List Json :=
  .ofMembers [("name", .string "default"), ("masquerade", .object [])] ::
    ctx.linkNumbers.map fun number =>
      .ofMembers [("name", .string (linkName number)), ("bridge", .object [])]

theorem canonical_interfaces (ctx : NodeContext) : ∀ item ∈ ctx.interfaces, item.Canonical := by
  simp [interfaces]

/-- The networks behind the interfaces. -/
def networks (ctx : NodeContext) : List Json :=
  .ofMembers [("name", .string "default"), ("pod", .object [])] ::
    ctx.linkNumbers.map fun number =>
      .ofMembers [
        ("name", .string (linkName number)),
        ("multus", .ofMembers [
          ("networkName", .string (ctx.name ++ "-" ++ linkName number))])]

theorem canonical_networks (ctx : NodeContext) : ∀ item ∈ ctx.networks, item.Canonical := by
  simp [networks]

/-- The labels of the machine's pod. -/
def machineLabels (ctx : NodeContext) : StringMap :=
  ctx.labels.insert Labels.virtualMachine ctx.name

/-- The devices of the machine, and its resources. -/
def domain (ctx : NodeContext) (defaults : VmDefaults) (bundle? : Option ConfigBundle) : Json :=
  .ofMembers [
    ("devices", .ofMembers [
      ("disks", .array (disks bundle?)), ("interfaces", .array ctx.interfaces)]),
    ("resources", (MachineSize.ofNode ctx.node defaults).requirements)]

@[simp]
theorem canonical_domain (ctx : NodeContext) (defaults : VmDefaults)
    (bundle? : Option ConfigBundle) : (ctx.domain defaults bundle?).Canonical := by
  refine .ofMembers ?_
  simpa using .ofMembers (by simpa using ⟨canonical_disks bundle?, ctx.canonical_interfaces⟩)

/-- The pod of the machine. -/
def machineSpec (ctx : NodeContext) (defaults : VmDefaults) (bundle? : Option ConfigBundle) :
    Json :=
  let userData :=
    CloudInit.userData ctx.hostname ctx.node.startupConfig defaults.sshAuthorizedKeys
  .ofMembers [
    ("hostname", .string ctx.hostname),
    ("domain", ctx.domain defaults bundle?),
    ("networks", .array ctx.networks),
    ("volumes", .array (volumes ctx.node.image userData bundle?))]

@[simp]
theorem canonical_machineSpec (ctx : NodeContext) (defaults : VmDefaults)
    (bundle? : Option ConfigBundle) : (ctx.machineSpec defaults bundle?).Canonical := by
  refine .ofMembers ?_
  simpa using ⟨ctx.canonical_networks, canonical_volumes ctx.node.image _ bundle?⟩

/-- The pod template of the machine. -/
def machineTemplate (ctx : NodeContext) (defaults : VmDefaults) (bundle? : Option ConfigBundle) :
    Json :=
  .ofMembers [
    ("metadata", .ofMembers [("labels", .ofStringMap ctx.machineLabels)]),
    ("spec", ctx.machineSpec defaults bundle?)]

@[simp]
theorem canonical_machineTemplate (ctx : NodeContext) (defaults : VmDefaults)
    (bundle? : Option ConfigBundle) : (ctx.machineTemplate defaults bundle?).Canonical := by
  simp [machineTemplate]

/-- The VirtualMachine that runs the node. -/
def virtualMachine (ctx : NodeContext) (defaults : VmDefaults) (bundle? : Option ConfigBundle) :
    Resource :=
  .ofBody .virtualMachine ctx.workloadMetadata [
    ("spec", .ofMembers [
      ("running", .bool true), ("template", ctx.machineTemplate defaults bundle?)])] (by simp)

/-- The VirtualMachine as it is built: there is no schema to build it by, so it is written as a
manifest, and what the manifest describes is read. -/
def machine? (ctx : NodeContext) (defaults : VmDefaults) (bundle? : Option ConfigBundle) :
    Option Resource :=
  Resource.ofJson? .virtualMachine (ctx.virtualMachine defaults bundle?).toJson

end NodeContext

end NetLab
