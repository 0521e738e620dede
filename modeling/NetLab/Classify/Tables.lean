import NetLab.Topology.Basic

/-!
# Tables for classification

What is known about images, node kinds and registries, by which a node is classified when nobody
has said what it should run as.  The tables can be replaced; `ClassifierTables.standard` is what
the operator starts with.
-/

namespace NetLab

/-- A set of names. -/
abbrev NameSet := SortedMap String Unit

/-- The set of some names. -/
def NameSet.ofNames (names : List String) : NameSet := .ofList (names.map fun name => (name, ()))

/-- The lookup tables of a classifier. -/
structure ClassifierTables where
  /-- Parts of image names of known products, with what they run as; case does not matter. -/
  imagePatterns : SortedMap String WorkloadType
  vmImageIndicators : List String
  containerImageIndicators : List String
  vmKinds : NameSet
  containerKinds : NameSet
  /-- Disk formats that only a machine can boot. -/
  vmImageExtensions : List String
  /-- Beginnings of image names that are served as machine disks. -/
  vmRegistries : List String
  /-- Beginnings of image names that are served as containers. -/
  containerRegistries : List String
deriving DecidableEq

namespace ClassifierTables

/-- The tables that the operator starts with. -/
def standard : ClassifierTables where
  imagePatterns := .ofList [
    ("cisco/csr1000v", .vm), ("cisco/iosv", .vm), ("cisco/iosxr", .vm), ("cisco/nxos", .vm),
    ("arista/veos", .vm), ("arista/ceos", .container), ("juniper/vmx", .vm),
    ("juniper/vsrx", .vm), ("juniper/vqfx", .vm), ("vyos/vyos", .vm), ("pfsense/pfsense", .vm),
    ("opnsense/opnsense", .vm), ("mikrotik/routeros", .vm), ("mikrotik/chr", .vm),
    ("fortinet/fortigate", .vm), ("nokia/srl", .container), ("nokia/srlinux", .container),
    ("sonic/sonic", .container), ("azure/sonic", .container), ("frr/frr", .container),
    ("quagga/quagga", .container), ("alpine", .container), ("ubuntu", .container),
    ("centos", .container), ("debian", .container)]
  vmImageIndicators := [
    "vmx", "vsrx", "vqfx", "veos", "csr1000v", "iosv", "iosxr", "vyos", "pfsense", "opnsense",
    "routeros", "chr", "fortigate", "vm-", "-vm", "virtual", "qemu", "kvm"]
  containerImageIndicators := [
    "ceos", "srl", "srlinux", "sonic", "frr", "quagga", "alpine", "ubuntu", "centos", "debian",
    "busybox", "container", "docker", "k8s"]
  vmKinds := .ofNames [
    "csr1000v", "iosv", "iosxr", "nxos", "veos", "vmx", "vsrx", "vqfx", "vyos", "pfsense",
    "opnsense", "routeros", "chr", "fortigate", "fortios"]
  containerKinds := .ofNames [
    "ceos", "srl", "srlinux", "sonic", "frr", "quagga", "linux", "host", "bridge", "ovs"]
  vmImageExtensions := ["qcow2", "vmdk", "iso", "ova", "vhd"]
  vmRegistries := [
    "registry.hub.docker.com/virtualization/", "quay.io/kubevirt/", "registry.redhat.io/ubi8/"]
  containerRegistries := ["docker.io/", "ghcr.io/", "quay.io/", "gcr.io/", "registry.k8s.io/"]

/-- The node kinds of a workload type. -/
def kinds (tables : ClassifierTables) : WorkloadType → NameSet
  | .container => tables.containerKinds
  | .vm => tables.vmKinds

/-- The image patterns and node kinds that the tables give a workload type, in ascending order. -/
def knownKinds (tables : ClassifierTables) (type : WorkloadType) : List String :=
  let patterns := tables.imagePatterns.filter fun _ t => t = type
  (NameSet.ofNames (patterns.keys ++ (tables.kinds type).keys)).keys

end ClassifierTables

end NetLab
