import NetLab.Proofs.Topology.Check
import NetLab.Proofs.Topology.Ends

/-!
# Distinct interfaces

The interfaces of a node are named by the endpoints that links have at it, in the order of the links
(`Topology.names_interfacesOf`).  So two of them have one name exactly if one endpoint occurs twice
(`Topology.nodup_names_iff`), which the check of a topology refuses, but for the attachments to the
host: of those it does not ask whether a node of that name is declared.

`Topology.distinct_interfaces_iff` says that this is the only way in which a node of a checked
topology gets one interface twice.  It can happen (`Topology.not_every_node_distinct`).
-/

namespace NetLab.Topology

variable {t : Topology} {node : String}

/-- The endpoints that the well-formed links have at a node, in order. -/
def endpointsAt (t : Topology) (node : String) : List Endpoint :=
  (endpointsOf t.endpointPairs).filter fun e => e.node = node

/-- The ends of links are at their endpoints. -/
theorem map_fst_endsOf (pairs : List (Endpoint × Endpoint)) :
    (endsOf pairs).map Prod.fst = endpointsOf pairs := by
  rw [endsOf, endpointsOf, List.map_flatMap]
  rfl

/-- **What interfaces are called**: as the endpoints at the node have it, in the order of the
links. -/
theorem names_interfacesOf (t : Topology) (node : String) :
    (t.interfacesOf node).map Interface.name = (t.endpointsAt node).map Endpoint.interface := by
  have hname : Interface.name =
      Endpoint.interface ∘ Prod.fst ∘ Interface.endAt node := rfl
  have hends : (t.ends.filter fun e => e.1.node = node).map Prod.fst = t.endpointsAt node := by
    rw [endpointsAt, ← map_fst_endsOf, List.filter_map]
    rfl
  rw [hname, ← List.map_map, ← List.map_map, map_interfacesOf, hends]

theorem nodup_endpointsAt_iff :
    (t.endpointsAt node).Nodup ↔
      ∀ e : Endpoint, e.node = node → (endpointsOf t.endpointPairs).count e ≤ 1 := by
  rw [List.nodup_iff_count_le_one]
  refine forall_congr' fun e => ?_
  by_cases hnode : e.node = node
  · rw [endpointsAt, List.count_filter (by simpa using hnode)]
    simp [hnode]
  · have hnone : e ∉ t.endpointsAt node := fun hmem =>
      hnode (by simpa using (List.mem_filter.1 hmem).2)
    simp [List.count_eq_zero.2 hnone, hnode]

/-- **Interfaces are distinct exactly if endpoints are.** -/
theorem nodup_names_iff :
    ((t.interfacesOf node).map Interface.name).Nodup ↔ (t.endpointsAt node).Nodup := by
  rw [names_interfacesOf]
  refine ⟨List.Nodup.of_map _, fun h => h.map_on ?_⟩
  -- At one node, endpoints of one interface are the same.
  rintro ⟨a, i⟩ ha ⟨b, j⟩ hb heq
  obtain rfl : a = node := by simpa using (List.mem_filter.1 ha).2
  obtain rfl : b = a := by simpa using (List.mem_filter.1 hb).2
  exact congrArg (Endpoint.mk b) heq

/-- The check sees to it that no endpoint at a node proper occurs twice. -/
theorem nodup_endpointsAt_of_check (h : t.check = .ok ()) (hproper : node ∉ specialNodes) :
    (t.endpointsAt node).Nodup := by
  obtain ⟨pairs, hjoins, hsound⟩ := check_eq_ok_iff.1 h
  rw [nodup_endpointsAt_iff, endpointPairs, filterMap_pair?_of_joins hjoins]
  rintro e rfl
  exact hsound.once e hproper

/-- **When a node of a checked topology has distinct interfaces**: always, unless it is named like
an attachment to the host and links name one endpoint at it twice. -/
theorem distinct_interfaces_iff (h : t.check = .ok ()) (node : String)
    (definition : NodeDefinition) :
    ((t.nodeConfig node definition).interfaces.map Interface.name).Nodup ↔
      (node ∈ specialNodes → (t.endpointsAt node).Nodup) := by
  have hinterfaces : (t.nodeConfig node definition).interfaces = t.interfacesOf node := rfl
  rw [hinterfaces, nodup_names_iff]
  refine ⟨fun hdistinct _ => hdistinct, fun hspecial => ?_⟩
  by_cases hproper : node ∈ specialNodes
  · exact hspecial hproper
  · exact nodup_endpointsAt_of_check h hproper

/-! A node that is named like an attachment to the host, and two links to one interface of it. -/

/-- The nodes `host` and `r1`, and links from `eth1` of `host` to two interfaces of `r1`. -/
def hosted : Topology :=
  Topology.ofName "lab"
    |>.withNode "host" (.ofImage "router" "frr")
    |>.withNode "r1" (.ofImage "router" "frr")
    |>.withLink "host:eth1" "r1:eth1"
    |>.withLink "host:eth1" "r1:eth2"

theorem hosted_checks : hosted.check = .ok () := by
  decide +kernel

theorem hosted_repeats : ¬ (hosted.endpointsAt "host").Nodup := by
  decide +kernel

/-- Of the two nodes, only the one that is called `r1` has distinct interfaces. -/
theorem hosted_interfaces : hosted.check = .ok () ∧
    hosted.nodes.keys = ["host", "r1"] ∧
    ((hosted.nodeConfig "r1" (.ofImage "router" "frr")).interfaces.map Interface.name).Nodup ∧
    ¬ ((hosted.nodeConfig "host" (.ofImage "router" "frr")).interfaces.map
      Interface.name).Nodup := by
  refine ⟨hosted_checks, by decide +kernel, ?_, ?_⟩
  · refine (distinct_interfaces_iff hosted_checks "r1" _).2 fun hspecial => ?_
    exact absurd hspecial (by decide)
  · rw [distinct_interfaces_iff hosted_checks "host"]
    exact fun hdistinct => hosted_repeats (hdistinct (by decide))

/-- **A checked topology can give a node one interface twice.** -/
theorem not_every_node_distinct : ¬ ∀ t : Topology, t.check = .ok () →
    ∀ node definition, t.nodes.get? node = some definition →
      ((t.nodeConfig node definition).interfaces.map Interface.name).Nodup := by
  intro hall
  have hnode : hosted.nodes.get? "host" = some (.ofImage "router" "frr") := by decide +kernel
  exact hosted_repeats (nodup_names_iff.1 (hall hosted hosted_checks "host" _ hnode))

end NetLab.Topology
