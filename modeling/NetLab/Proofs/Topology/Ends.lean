import Mathlib.Data.List.Count
import NetLab.Proofs.Policy.Links

/-!
# The ends of links

A well-formed link has two ends, and each end has the other one opposite to it (`Topology.ends`).
The interfaces of a node are the ends at the node, in the order of the links
(`Topology.map_interfacesOf`), and its peers are the declared nodes opposite to it.  So whatever holds
of the ends and of the ends turned round holds of two nodes and of the same nodes turned round: a link
is seen alike from both sides, however often it is declared, in either direction, and also if it leads
from a node to itself (`Topology.ends_agree`).
-/

namespace NetLab

/-- The end of the link to which an interface of a node belongs, and the end opposite. -/
def Interface.endAt (node : String) (interface : Interface) : Endpoint × Endpoint :=
  (⟨node, interface.name⟩, interface.peer)

theorem Interface.endAt_injective (node : String) : Function.Injective (endAt node) := by
  rintro ⟨name, peer⟩ ⟨name', peer'⟩ h
  simpa [endAt] using h

namespace Topology

/-- The ends of some links, each with the end opposite. -/
def endsOf (pairs : List (Endpoint × Endpoint)) : List (Endpoint × Endpoint) :=
  pairs.flatMap fun pair => [pair, pair.swap]

/-- The ends of all well-formed links, each with the end opposite, in the order of the links. -/
def ends (t : Topology) : List (Endpoint × Endpoint) := endsOf t.endpointPairs

/-- Every end occurs as often as the end opposite. -/
theorem count_endsOf_swap (pairs : List (Endpoint × Endpoint)) (e : Endpoint × Endpoint) :
    (endsOf pairs).count e.swap = (endsOf pairs).count e := by
  induction pairs with
  | nil => rfl
  | cons pair rest ih =>
    have hturned : pair.swap = e.swap ↔ pair = e := Prod.swap_inj
    have hswap : pair = e.swap ↔ pair.swap = e := by
      rw [← Prod.swap_inj, Prod.swap_swap]
    have hends : endsOf (pair :: rest) = pair :: pair.swap :: endsOf rest := rfl
    simp only [hends, List.count_cons, ih, beq_iff_eq, hturned, hswap]
    omega

variable {t : Topology}

/-- **The interfaces of a node are the ends of links at the node**, in the order of the links. -/
theorem map_interfacesOf (t : Topology) (node : String) :
    (t.interfacesOf node).map (Interface.endAt node) = t.ends.filter fun e => e.1.node = node := by
  unfold interfacesOf ends endsOf
  rw [List.map_flatMap, List.filter_flatMap]
  refine List.flatMap_congr fun ⟨⟨a, i⟩, ⟨b, j⟩⟩ _ => ?_
  by_cases ha : a = node <;> by_cases hb : b = node <;> simp [ha, hb, Interface.endAt]

theorem count_interfacesOf (t : Topology) (node : String) (interface : Interface) :
    (t.interfacesOf node).count interface = t.ends.count (interface.endAt node) := by
  rw [← List.count_map_of_injective _ _ (Interface.endAt_injective node), map_interfacesOf,
    List.count_filter (by simp [Interface.endAt])]

/-! ## Peers -/

theorem mem_ends {e : Endpoint × Endpoint} :
    e ∈ t.ends ↔ e ∈ t.endpointPairs ∨ e.swap ∈ t.endpointPairs := by
  have hend (pair : Endpoint × Endpoint) : e ∈ [pair, pair.swap] ↔ pair = e ∨ pair = e.swap := by
    have hswap : e = pair.swap ↔ pair = e.swap := by
      rw [← Prod.swap_inj, Prod.swap_swap, eq_comm]
    rw [List.mem_pair, hswap, eq_comm]
  simp only [ends, endsOf, List.mem_flatMap, hend, and_or_left, exists_or, exists_eq_right]

/-- Two nodes are linked if an end at the one is opposite to an end at the other. -/
theorem linked_iff_exists_end {a b : String} :
    t.Linked a b ↔ ∃ e ∈ t.ends, e.1.node = a ∧ e.2.node = b := by
  simp only [mem_ends]
  constructor
  · rintro ⟨link, hlink, x, y, hpair, hjoins⟩
    have hmem : (x, y) ∈ t.endpointPairs := List.mem_filterMap.2 ⟨link, hlink, hpair⟩
    rcases hjoins with ⟨rfl, rfl⟩ | ⟨rfl, rfl⟩
    · exact ⟨(x, y), Or.inl hmem, rfl, rfl⟩
    · exact ⟨(y, x), Or.inr hmem, rfl, rfl⟩
  · rintro ⟨⟨x, y⟩, hmem | hmem, rfl, rfl⟩
    · obtain ⟨link, hlink, hpair⟩ := List.mem_filterMap.1 hmem
      exact ⟨link, hlink, x, y, hpair, Or.inl ⟨rfl, rfl⟩⟩
    · obtain ⟨link, hlink, hpair⟩ := List.mem_filterMap.1 hmem
      exact ⟨link, hlink, y, x, hpair, Or.inr ⟨rfl, rfl⟩⟩

theorem exists_interface_iff_linked {a b : String} :
    (∃ interface ∈ t.interfacesOf a, interface.peer.node = b) ↔ t.Linked a b := by
  have hmem (e : Endpoint × Endpoint) :
      (∃ interface ∈ t.interfacesOf a, interface.endAt a = e) ↔ e ∈ t.ends ∧ e.1.node = a := by
    rw [← List.mem_map, map_interfacesOf, List.mem_filter, decide_eq_true_iff]
  rw [linked_iff_exists_end]
  constructor
  · rintro ⟨interface, hinterface, rfl⟩
    obtain ⟨hend, -⟩ := (hmem (interface.endAt a)).1 ⟨interface, hinterface, rfl⟩
    exact ⟨_, hend, rfl, rfl⟩
  · rintro ⟨e, hend, hnode, rfl⟩
    obtain ⟨interface, hinterface, rfl⟩ := (hmem e).2 ⟨hend, hnode⟩
    exact ⟨interface, hinterface, rfl⟩

/-- **The peers of a node** are the other declared nodes opposite to its interfaces. -/
theorem mem_linkedPeers_iff_interface {a b : String} :
    b ∈ t.linkedPeers a ↔ t.nodes.contains b = true ∧ b ≠ a ∧
      ∃ interface ∈ t.interfacesOf a, interface.peer.node = b := by
  rw [exists_interface_iff_linked]
  constructor
  · intro h
    obtain ⟨-, hne, hdeclared⟩ := mem_linkedPeers.1 h
    exact ⟨hdeclared, hne, (mem_linkedPeers_iff_linked hne.symm hdeclared).1 h⟩
  · rintro ⟨hdeclared, hne, hlinked⟩
    exact (mem_linkedPeers_iff_linked hne.symm hdeclared).2 hlinked

/-! ## Both sides -/

/-- **Both sides of a link see it alike**, and policies see it as interfaces do. -/
structure EndsAgree (t : Topology) : Prop where
  opposite : ∀ (a b i j : String) (definition definition' : NodeDefinition),
    (t.nodeConfig a definition).interfaces.count ⟨i, b, j⟩ =
      (t.nodeConfig b definition').interfaces.count ⟨j, a, i⟩
  /-- An interface for each end at the node, and no other, in the order of the links. -/
  inOrder : ∀ (node : String) (definition : NodeDefinition),
    (t.nodeConfig node definition).interfaces.map (Interface.endAt node) =
      t.ends.filter fun e => e.1.node = node
  peers : ∀ (a b : String) (definition : NodeDefinition),
    b ∈ t.linkedPeers a ↔ t.nodes.contains b = true ∧ b ≠ a ∧
      ∃ interface ∈ (t.nodeConfig a definition).interfaces, interface.peer.node = b
  peers_nodup : ∀ node, (t.linkedPeers node).Nodup
  peers_symm : ∀ a b, t.nodes.contains a = true → t.nodes.contains b = true →
    (b ∈ t.linkedPeers a ↔ a ∈ t.linkedPeers b)

/-- **A link looks the same from both of its ends.** -/
theorem ends_agree (t : Topology) : t.EndsAgree where
  opposite a b i j _ _ := by
    have hturned := count_endsOf_swap t.endpointPairs (⟨a, i⟩, ⟨b, j⟩)
    exact (t.count_interfacesOf a ⟨i, b, j⟩).trans
      (hturned.symm.trans (t.count_interfacesOf b ⟨j, a, i⟩).symm)
  inOrder node _ := t.map_interfacesOf node
  peers _ _ _ := mem_linkedPeers_iff_interface
  peers_nodup _ := SortedMap.nodup_keys _
  peers_symm a b ha hb := by
    have hlinked : t.Linked a b ↔ t.Linked b a := ⟨Linked.symm, Linked.symm⟩
    simp only [mem_linkedPeers_iff_interface, exists_interface_iff_linked, ha, hb, hlinked, ne_comm]

/-- A link from a node to itself gives it two interfaces, each the peer of the other. -/
example : (oneNode.withLink "r1:eth1" "r1:eth2").interfacesOf "r1" =
    [⟨"eth1", "r1", "eth2"⟩, ⟨"eth2", "r1", "eth1"⟩] := by
  decide +kernel

end Topology

end NetLab
