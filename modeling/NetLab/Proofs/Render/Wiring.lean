import NetLab.Proofs.Render.References
import NetLab.Proofs.Topology.Ends

/-!
# How machines are wired

A machine has interfaces and networks behind them, disks and volumes behind them; which belongs to
which is said by names alone.  The interfaces for links are numbered, and the secondary network of
each is called by the name of the machine and the number.  Neither holds a dash where it meets the
other, so a network tells its machine and its number (`NodeContext.networkName_inj`).  As machines
have names of their own, no network has two interfaces (`Topology.machines_wired`).
-/

namespace NetLab

open Kube

/-! ## Reading manifests -/

namespace Kube.Resource

/-- The interfaces of a machine. -/
def interfaces (r : Resource) : List Json :=
  (r.pod.path ["domain", "devices", "interfaces"]).items

/-- The disks of a machine. -/
def disks (r : Resource) : List Json := (r.pod.path ["domain", "devices", "disks"]).items

/-- The networks of a machine. -/
def networks (r : Resource) : List Json := (r.pod.get "networks").items

/-- The volumes of a machine. -/
def volumes (r : Resource) : List Json := (r.pod.get "volumes").items

/-- The secondary networks that a machine is attached to. -/
def attachments (r : Resource) : List String :=
  r.networks.filterMap fun network => (network.path ["multus", "networkName"]).asString?

/-- The names of interfaces, networks, disks or volumes. -/
def namesOf (items : List Json) : List Json := items.map fun item => item.get "name"

end Kube.Resource

/-- The number of ends of well-formed links at a node. -/
def Topology.linkCount (t : Topology) (node : String) : Nat :=
  (t.ends.filter fun e => e.1.node = node).length

/-- **A machine is wired** for some number of links. -/
structure Kube.Resource.Wired (r : Resource) (links : Nat) : Prop where
  interfaces : namesOf r.interfaces = .string "default" ::
    (List.range' 1 links).map fun number => .string (NodeContext.linkName number)
  networks : namesOf r.networks = namesOf r.interfaces
  interfaces_nodup : (namesOf r.interfaces).Nodup
  volumes : namesOf r.volumes = namesOf r.disks
  disks_nodup : (namesOf r.disks).Nodup
  /-- Every interface but the first one has a secondary network. -/
  attachments : r.attachments =
    (List.range' 1 links).map fun number => r.name ++ "-" ++ NodeContext.linkName number

/-! ## Names -/

namespace NodeContext

theorem toList_linkName (number : Nat) :
    (linkName number).toList = 'n' :: 'e' :: 't' :: Nat.toDigits 10 number := by
  rw [linkName, String.toList_append, Nat.toString_eq_repr, Nat.toList_repr]
  rfl

theorem linkName_injective : Function.Injective linkName := by
  intro number number' h
  have hdigits : Nat.toDigits 10 number = Nat.toDigits 10 number' := by
    simpa [toList_linkName] using congrArg String.toList h
  calc number = Nat.ofDigitChars 10 (Nat.toDigits 10 number) 0 :=
        Nat.ofDigitChars_ten_toDigits.symm
    _ = Nat.ofDigitChars 10 (Nat.toDigits 10 number') 0 := by rw [hdigits]
    _ = number' := Nat.ofDigitChars_ten_toDigits

theorem dash_not_mem_linkName (number : Nat) : '-' ∉ (linkName number).toList := by
  have hdigits : '-' ∉ Nat.toDigits 10 number := fun hmem =>
    absurd (Nat.isDigit_of_mem_toDigits (by decide) (by decide) hmem) (by decide)
  simpa [toList_linkName] using hdigits

/-- **A secondary network tells its machine and the number of the link**: the last dash stands
between the two. -/
theorem networkName_inj {name name' : String} {number number' : Nat}
    (h : name ++ "-" ++ linkName number = name' ++ "-" ++ linkName number') :
    name = name' ∧ number = number' := by
  have hlist := congrArg String.toList h
  simp only [String.toList_append] at hlist
  obtain ⟨hname, hlink⟩ := DnsLabel.append_dash_inj (dash_not_mem_linkName number)
    (dash_not_mem_linkName number') (by simpa using hlist)
  exact ⟨String.toList_inj.1 hname, linkName_injective (String.toList_inj.1 hlink)⟩

/-! ## One machine -/

open Kube.Resource

variable (ctx : NodeContext) (defaults : VmDefaults) (bundle? : Option ConfigBundle)

theorem devices_virtualMachine (name : String) :
    (ctx.virtualMachine defaults bundle?).pod.path ["domain", "devices", name] =
      (Json.ofMembers [("disks", .array (NodeContext.disks bundle?)),
        ("interfaces", .array ctx.interfaces)]).get name := by
  rw [pod_virtualMachine, Json.path_cons, machineSpec_domain, Json.path_cons, domain_devices]
  rfl

theorem interfaces_virtualMachine :
    (ctx.virtualMachine defaults bundle?).interfaces = ctx.interfaces := by
  rw [Resource.interfaces, devices_virtualMachine]
  simp [Json.get, Json.items, Json.asArray?]

theorem disks_virtualMachine :
    (ctx.virtualMachine defaults bundle?).disks = NodeContext.disks bundle? := by
  rw [Resource.disks, devices_virtualMachine]
  simp [Json.get, Json.items, Json.asArray?]

theorem networks_virtualMachine :
    (ctx.virtualMachine defaults bundle?).networks = ctx.networks := by
  rw [Resource.networks, pod_virtualMachine]
  simp [machineSpec, Json.get, Json.items, Json.asArray?]

theorem namesOf_interfaces : namesOf ctx.interfaces = .string "default" ::
    ctx.linkNumbers.map fun number => .string (linkName number) := by
  simp [namesOf, interfaces, Json.get]

theorem namesOf_networks : namesOf ctx.networks = namesOf ctx.interfaces := by
  simp [namesOf, interfaces, networks, Json.get]

theorem nodup_namesOf_interfaces : (namesOf ctx.interfaces).Nodup := by
  rw [namesOf_interfaces, List.nodup_cons]
  constructor
  · intro hmem
    obtain ⟨number, -, hname⟩ := List.mem_map.1 hmem
    have hfirst := congrArg String.toList (Json.string.inj hname)
    rw [toList_linkName] at hfirst
    exact absurd (List.cons.inj hfirst).1 (by decide)
  · exact (List.nodup_range' 1).map fun _ _ h => linkName_injective (Json.string.inj h)

theorem volumes_virtualMachine :
    namesOf (ctx.virtualMachine defaults bundle?).volumes =
      namesOf (NodeContext.disks bundle?) := by
  rw [Resource.volumes, pod_virtualMachine, machineSpec_volumes]
  cases bundle? <;> simp [namesOf, NodeContext.volumes, NodeContext.disks, disk,
    ConfigBundle.volume, Json.get, Json.items, Json.asArray?]

theorem nodup_namesOf_disks : (namesOf (NodeContext.disks bundle?)).Nodup := by
  cases bundle? <;> simp [namesOf, NodeContext.disks, disk, Json.get, ConfigBundle.volumeName]

/-- A machine is attached to a network of its own for each link. -/
theorem attachments_virtualMachine : (ctx.virtualMachine defaults bundle?).attachments =
    ctx.linkNumbers.map fun number => ctx.name ++ "-" ++ linkName number := by
  rw [Resource.attachments, networks_virtualMachine, networks]
  simp [List.filterMap_map, Function.comp_def, Json.path, Json.get]

/-- **The machine of a node is wired for the node's links.** -/
theorem wired_virtualMachine :
    (ctx.virtualMachine defaults bundle?).Wired ctx.node.interfaces.length where
  interfaces := by rw [interfaces_virtualMachine, namesOf_interfaces]; rfl
  networks := by rw [networks_virtualMachine, interfaces_virtualMachine, namesOf_networks]
  interfaces_nodup := by
    rw [interfaces_virtualMachine]
    exact ctx.nodup_namesOf_interfaces
  volumes := by rw [volumes_virtualMachine, disks_virtualMachine]
  disks_nodup := by
    rw [disks_virtualMachine]
    exact nodup_namesOf_disks bundle?
  attachments := ctx.attachments_virtualMachine defaults bundle?

/-- A machine is among the objects of a node that runs as one, and no other object is a machine. -/
theorem filter_machines :
    ((ctx.objects defaults bundle?).map PlannedObject.object).filter
        (fun object => object.kind = .virtualMachine) =
      if ctx.classification.workloadType = .vm then [ctx.virtualMachine defaults bundle?]
      else [] := by
  have hconfig (metadata : Meta) (bundle : ConfigBundle) :
      (configMap metadata bundle).kind = .configMap := rfl
  have hservice : ctx.service.kind = .service := rfl
  have hworkload := ctx.workload_kind defaults bundle?
  unfold workload at hworkload
  unfold objects objectsAround workload
  cases htype : ctx.classification.workloadType <;> rw [htype] at hworkload <;>
    cases bundle? <;>
      simp [PlannedObject.free, hconfig, hservice, hworkload, WorkloadType.kind]

end NodeContext

/-! ## All machines -/

namespace RenderedNode

/-- The machines among the objects of a node. -/
def machines (node : RenderedNode) : List Resource :=
  (node.objects.map PlannedObject.object).filter fun object => object.kind = .virtualMachine

/-- The secondary networks that the machines of a node are attached to. -/
def attachments (node : RenderedNode) : List String := node.machines.flatMap Resource.attachments

end RenderedNode

namespace Topology

variable {t : Topology} {c : Classifier} {namespaceName : String}
  {definitions : SortedMap String NodeDefinition} {rendered : SortedMap String RenderedNode}

theorem length_interfaces (t : Topology) (node : String) (definition : NodeDefinition) :
    (t.nodeConfig node definition).interfaces.length = t.linkCount node := by
  rw [linkCount, ← map_interfacesOf, List.length_map]
  rfl

section

variable {name : String} {definition : NodeDefinition} {bundle? : Option ConfigBundle}
  {node : RenderedNode}

/-- A node has one machine at most, called like the workload and wired for the links of the node. -/
theorem machines_of_isRendered (h : t.IsRendered c namespaceName name definition bundle? node) :
    node.machines = [] ∨ ∃ machine, node.machines = [machine] ∧
      machine.name = t.workloadName name ∧ machine.Wired (t.linkCount name) := by
  obtain ⟨-, rfl⟩ := h
  rw [RenderedNode.machines, NodeContext.filter_machines]
  split
  · refine Or.inr ⟨_, rfl, rfl, ?_⟩
    rw [← t.length_interfaces name definition]
    exact NodeContext.wired_virtualMachine _ _ _
  · exact Or.inl rfl

/-- The networks of a node are called by its workload and the numbers of its links. -/
theorem attachments_of_isRendered
    (h : t.IsRendered c namespaceName name definition bundle? node) :
    ∃ numbers : List Nat, numbers.Nodup ∧ node.attachments =
      numbers.map fun number => t.workloadName name ++ "-" ++ NodeContext.linkName number := by
  rcases machines_of_isRendered h with hnone | ⟨machine, hone, hname, hwired⟩
  · exact ⟨[], List.nodup_nil, by rw [RenderedNode.attachments, hnone]; rfl⟩
  · refine ⟨List.range' 1 (t.linkCount name), List.nodup_range' 1, ?_⟩
    rw [RenderedNode.attachments, hone, List.flatMap_singleton, hwired.attachments, hname]

end

/-- **All machines of a rendered topology are wired.**  Their interfaces and networks match, their
disks and volumes match, and no two interfaces of any of them are attached to one secondary
network. -/
theorem machines_wired (h : t.renderDefinitions c namespaceName definitions = .ok rendered) :
    (∀ entry ∈ rendered.entries, ∀ machine ∈ entry.2.machines,
      machine.Wired (t.linkCount entry.1)) ∧
    (rendered.values.flatMap RenderedNode.attachments).Nodup := by
  have hattached : ∀ entry ∈ rendered.entries, ∃ numbers : List Nat, numbers.Nodup ∧
      entry.2.attachments = numbers.map fun number =>
        t.workloadName entry.1 ++ "-" ++ NodeContext.linkName number := by
    intro entry hmem
    obtain ⟨definition, bundle?, -, hrendered⟩ := isRendered_of_renderDefinitions h entry hmem
    exact attachments_of_isRendered hrendered
  constructor
  · intro entry hmem machine hmachine
    obtain ⟨definition, bundle?, -, hrendered⟩ := isRendered_of_renderDefinitions h entry hmem
    rcases machines_of_isRendered hrendered with hnone | ⟨only, hone, -, hwired⟩
    · rw [hnone] at hmachine
      cases hmachine
    · rw [hone, List.mem_singleton] at hmachine
      rwa [hmachine]
  · rw [SortedMap.values, List.flatMap_map, List.nodup_flatMap]
    constructor
    · intro entry hmem
      obtain ⟨numbers, hnodup, heq⟩ := hattached entry hmem
      rw [heq]
      exact hnodup.map fun _ _ hsame => (NodeContext.networkName_inj hsame).2
    · refine (List.Nodup.of_map _ rendered.nodup_keys).pairwise_of_forall_ne ?_
      intro a ha b hb hne network hnetwork hnetwork'
      obtain ⟨numbers, -, heq⟩ := hattached a ha
      obtain ⟨numbers', -, heq'⟩ := hattached b hb
      simp only [heq] at hnetwork
      simp only [heq'] at hnetwork'
      obtain ⟨number, -, rfl⟩ := List.mem_map.1 hnetwork
      obtain ⟨number', -, hsame⟩ := List.mem_map.1 hnetwork'
      exact hne (workloadName_inj h ha hb (NodeContext.networkName_inj hsame).1.symm)

/-! Two machines, one of them called like a network of the other. -/

/-- The machines `r1` and `r1-net1`, linked to each other twice. -/
def namesake : Topology :=
  { (Topology.ofName "lab"
      |>.withNode "r1" (.ofImage "router" "frr")
      |>.withNode "r1-net1" (.ofImage "router" "frr")
      |>.withLink "r1:eth1" "r1-net1:eth1"
      |>.withLink "r1-net1:eth2" "r1:eth2") with
    native := { (default : NativeExecution) with executionMode := .vm } }

theorem namesake_wired : ∃ rendered,
    namesake.renderDefinitions .bare "sim" namesake.nodes = .ok rendered ∧
    rendered.values.flatMap RenderedNode.attachments =
      ["lab-r1-net1", "lab-r1-net2", "lab-r1-net1-net1", "lab-r1-net1-net2"] ∧
    (rendered.values.flatMap RenderedNode.attachments).Nodup ∧
    ∀ entry ∈ rendered.entries, ∀ machine ∈ entry.2.machines,
      machine.Wired (namesake.linkCount entry.1) := by
  obtain ⟨rendered, hrender, hattached⟩ := @exists_ok_of_any _ _
    (namesake.renderDefinitions .bare "sim" namesake.nodes)
    (fun rendered => decide (rendered.values.flatMap RenderedNode.attachments =
      ["lab-r1-net1", "lab-r1-net2", "lab-r1-net1-net1", "lab-r1-net1-net2"])) (by decide +kernel)
  obtain ⟨hwired, hnodup⟩ := machines_wired hrender
  exact ⟨rendered, hrender, of_decide_eq_true hattached, hnodup, hwired⟩

end Topology

end NetLab
