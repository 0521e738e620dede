import NetLab.Proofs.Drift.Update
import NetLab.Proofs.Json.Subset

/-!
# What a server adds is no drift

An API server stores an object with what it adds to it: defaults, addresses, a status, annotations
of its own.  `Resource.Filled` bounds that by what the operator owns.  Labels, selectors and data
stay as they were sent, a Service gets no other type than `ClusterIP`, and a field that the operator
owns and has left unset stays unset.

Within these bounds an object that was just written has not drifted (`needsUpdate_of_filled`), and
neither has one that has replaced another (`needsUpdate_of_filled_update`).  No other bounds are
needed: of a server that keeps what it is sent (`Resource.Kept`), an object counts as drifted
exactly if something that the operator owns reads otherwise (`Kept.needsUpdate_eq_false_iff`).
-/

namespace NetLab.Kube

open Json (Fills isSubset)

namespace Drift

/-- None of the fields is set that was not set before. -/
def LeavesUnset (fields : List String) (sent stored : Json) : Prop :=
  ∀ field ∈ fields, isSet (sent.get field) = false → isSet (stored.get field) = false

/-- What the operator owns of a pod is left as it is: its volumes, and of each container what is
not set. -/
def LeavesPod (sent stored : Json) : Prop :=
  LeavesUnset podFields sent stored ∧
    ∀ items items', sent.get "containers" = .array items → stored.get "containers" = .array items' →
      ∀ pair ∈ items.zip items', LeavesUnset containerFields pair.1 pair.2 ∧
        LeavesUnset resourceFields (pair.1.get "resources") (pair.2.get "resources")

/-- What the operator owns of an object of a kind is left as it is. -/
def LeavesOwned (kind : Kind) (sent stored : Json) : Prop :=
  match kind with
  | .deployment =>
    stored.path ["spec", "template", "metadata", "labels"] =
        sent.path ["spec", "template", "metadata", "labels"] ∧
      LeavesPod (sent.path ["spec", "template", "spec"]) (stored.path ["spec", "template", "spec"])
  | .service =>
    stored.path ["spec", "selector"] = sent.path ["spec", "selector"] ∧
      (sent.path ["spec", "type"] = .null → stored.path ["spec", "type"] = .null ∨
        stored.path ["spec", "type"] = .string "ClusterIP")
  | .configMap => stored.get "data" = sent.get "data"
  | .virtualMachine =>
    stored.path ["spec", "template", "metadata", "labels"] =
        sent.path ["spec", "template", "metadata", "labels"] ∧
      LeavesUnset resourceFields (sent.path ["spec", "template", "spec", "domain", "resources"])
        (stored.path ["spec", "template", "spec", "domain", "resources"])
  | .networkPolicy => True

theorem LeavesPod.self (pod : Json) : LeavesPod pod pod := by
  refine ⟨fun _ _ => id, fun items items' hitems hitems' pair hmem => ?_⟩
  obtain rfl : items = items' := Json.array.inj (hitems.symm.trans hitems')
  obtain ⟨i, hi, rfl⟩ := List.mem_iff_getElem.1 hmem
  simp only [List.getElem_zip]
  exact ⟨fun _ _ => id, fun _ _ => id⟩

theorem LeavesOwned.self (kind : Kind) (body : Json) : LeavesOwned kind body body := by
  cases kind
  · exact rfl
  · exact ⟨rfl, LeavesPod.self _⟩
  · exact ⟨rfl, fun _ _ => id⟩
  · exact ⟨rfl, Or.inl⟩
  · exact trivial

theorem keepsDropped_eq_false_iff {fields : List String} {sent stored : Json} :
    keepsDropped sent stored fields = false ↔ LeavesUnset fields sent stored := by
  simp only [keepsDropped, LeavesUnset, List.any_eq_false, Bool.and_eq_true,
    Bool.not_eq_eq_eq_not, Bool.not_true, not_and, Bool.not_eq_true]

theorem containerKeepsDropped_eq_false_iff {sent stored : Json} :
    containerKeepsDropped sent stored = false ↔ LeavesUnset containerFields sent stored ∧
      LeavesUnset resourceFields (sent.get "resources") (stored.get "resources") := by
  simp only [containerKeepsDropped, Bool.or_eq_false_iff, keepsDropped_eq_false_iff]

/-- A pod that holds everything that was sent differs only in what the operator owns of it. -/
theorem pod_eq_false_iff {sent stored : Json} (h : Fills sent stored) :
    pod sent stored = false ↔ LeavesPod sent stored := by
  simp only [pod, Json.isSubset_of_fills h, Bool.not_true, Bool.false_or, Bool.or_eq_false_iff,
    keepsDropped_eq_false_iff, LeavesPod]
  refine and_congr_right fun _ => ?_
  split
  · rename_i items items' hitems hitems'
    simp only [List.any_eq_false, Bool.not_eq_true, containerKeepsDropped_eq_false_iff]
    constructor
    · intro hleaves _ _ heq heq' pair hmem
      obtain rfl := Json.array.inj (hitems.symm.trans heq)
      obtain rfl := Json.array.inj (hitems'.symm.trans heq')
      exact hleaves pair hmem
    · exact fun hleaves => hleaves items items' hitems hitems'
  · rename_i hnone
    exact iff_of_true rfl fun items items' hitems hitems' =>
      (hnone items items' hitems hitems').elim

/-- What the operator owns of an object of a kind reads as it was sent.  Where the comparison reads
a map, one that is missing, `null` or empty is the same. -/
def ReadsOwned (kind : Kind) (sent stored : Json) : Prop :=
  match kind with
  | .deployment =>
    textsOrNone (stored.path ["spec", "template", "metadata", "labels"]) =
        textsOrNone (sent.path ["spec", "template", "metadata", "labels"]) ∧
      LeavesPod (sent.path ["spec", "template", "spec"]) (stored.path ["spec", "template", "spec"])
  | .service =>
    textsOrNone (stored.path ["spec", "selector"]) = textsOrNone (sent.path ["spec", "selector"]) ∧
      (sent.path ["spec", "type"] = .null →
        ((stored.path ["spec", "type"]).asString?).getD "ClusterIP" = "ClusterIP")
  | .configMap => textsOrNone (stored.get "data") = textsOrNone (sent.get "data")
  | .virtualMachine =>
    stored.path ["spec", "template", "metadata", "labels"] =
        sent.path ["spec", "template", "metadata", "labels"] ∧
      LeavesUnset resourceFields (sent.path ["spec", "template", "spec", "domain", "resources"])
        (stored.path ["spec", "template", "spec", "domain", "resources"])
  | .networkPolicy => True

/-- What is left exactly as it was sent reads the same. -/
theorem LeavesOwned.readsOwned {kind : Kind} {sent stored : Json}
    (h : LeavesOwned kind sent stored) : ReadsOwned kind sent stored := by
  cases kind with
  | configMap => exact congrArg textsOrNone h
  | deployment => exact ⟨congrArg textsOrNone h.1, h.2⟩
  | virtualMachine => exact h
  | service =>
    refine ⟨congrArg textsOrNone h.1, fun hsent => ?_⟩
    rcases h.2 hsent with hstored | hstored
    · rw [hstored]
      rfl
    · rw [hstored]
      rfl
  | networkPolicy => exact trivial

end Drift

namespace Resource

/-- **What a server may make of an object** that it is sent. -/
structure Filled (sent stored : Resource) : Prop where
  key : stored.key = sent.key
  labels : stored.metadata.labels.getD ∅ = sent.metadata.labels.getD ∅
  annotations : ∀ name value, (sent.metadata.annotations.getD ∅).get? name = some value →
    (stored.metadata.annotations.getD ∅).get? name = some value
  body : Fills (.object sent.body) (.object stored.body)
  owned : Drift.LeavesOwned sent.kind (.object sent.body) (.object stored.body)

/-- A server may keep an object as it was sent, under a version of its own. -/
theorem filled_withVersion (sent : Resource) (version : Option String) :
    sent.Filled (sent.withVersion version) where
  key := rfl
  labels := rfl
  annotations _ _ := id
  body := sent.canonical.fills_self
  owned := Drift.LeavesOwned.self sent.kind _

theorem Filled.kind {sent stored : Resource} (h : Filled sent stored) : stored.kind = sent.kind :=
  congrArg Key.kind h.key

/-- **What a server keeps of an object** whatever else it makes of it: all the annotations, and all
the values in its body with the lengths of their arrays. -/
structure Kept (sent stored : Resource) : Prop where
  kind : stored.kind = sent.kind
  annotations : ∀ name value, (sent.metadata.annotations.getD ∅).get? name = some value →
    (stored.metadata.annotations.getD ∅).get? name = some value
  body : Fills (.object sent.body) (.object stored.body)

theorem Filled.kept {sent stored : Resource} (h : Filled sent stored) : Kept sent stored :=
  ⟨h.kind, h.annotations, h.body⟩

/-- What the operator owns outright reads in the stored object as it does in the one that was
sent. -/
structure ReadsAlike (sent stored : Resource) : Prop where
  labels : stored.metadata.labels.getD ∅ = sent.metadata.labels.getD ∅
  owned : Drift.ReadsOwned sent.kind (.object sent.body) (.object stored.body)

theorem Filled.readsAlike {sent stored : Resource} (h : Filled sent stored) :
    ReadsAlike sent stored :=
  ⟨h.labels, h.owned.readsOwned⟩

namespace Kept

variable {sent stored : Resource}

theorem spec (h : Kept sent stored) : Fills (sent.get "spec") (stored.get "spec") :=
  h.body.get "spec"

theorem metadata_eq_false_iff (h : Kept sent stored) :
    Drift.metadata sent.metadata stored.metadata = false ↔
      stored.metadata.labels.getD ∅ = sent.metadata.labels.getD ∅ := by
  rw [Drift.metadata, Bool.or_eq_false_iff, bne_eq_false_iff_eq, Bool.not_eq_false',
    List.all_eq_true]
  refine (and_iff_left fun entry hmem => ?_).trans eq_comm
  exact decide_eq_true (h.annotations entry.1 entry.2 (SortedMap.get?_eq_some_iff.2 hmem))

theorem deployment_eq_false_iff (h : Kept sent stored) :
    Drift.deployment sent stored = false ↔
      Drift.ReadsOwned .deployment (.object sent.body) (.object stored.body) := by
  have htemplate := h.spec.get "template"
  simp only [Drift.deployment, Json.isSubset_of_fills (htemplate.path ["metadata", "annotations"]),
    Bool.not_true, Bool.or_false, Bool.or_eq_false_iff, bne_eq_false_iff_eq,
    Drift.pod_eq_false_iff (htemplate.get "spec")]
  exact and_congr_left fun _ => eq_comm

theorem service_eq_false_iff (h : Kept sent stored) :
    Drift.service sent stored = false ↔
      Drift.ReadsOwned .service (.object sent.body) (.object stored.body) := by
  simp only [Drift.service, Json.isSubset_of_fills (h.spec.get "ports"), Bool.not_true,
    Bool.false_or, Bool.or_eq_false_iff, bne_eq_false_iff_eq]
  refine and_congr eq_comm ?_
  by_cases hnull : (sent.get "spec").get "type" = .null
  · rw [hnull, eq_comm]
    exact ⟨fun htype _ => htype, fun htype => htype hnull⟩
  · -- A type that was sent is kept by every server.
    rw [(h.spec.get "type").asString?_eq hnull]
    exact iff_of_true rfl fun hsent => absurd hsent hnull

theorem configMap_eq_false_iff (_ : Kept sent stored) :
    Drift.configMap sent stored = false ↔
      Drift.ReadsOwned .configMap (.object sent.body) (.object stored.body) := by
  simp only [Drift.configMap, bne_eq_false_iff_eq]
  exact eq_comm

theorem virtualMachine_eq_false_iff (h : Kept sent stored) :
    Drift.virtualMachine sent stored = false ↔
      Drift.ReadsOwned .virtualMachine (.object sent.body) (.object stored.body) := by
  simp only [Drift.virtualMachine, Json.isSubset_of_fills h.spec, Bool.not_true, Bool.false_or,
    Bool.or_eq_false_iff, bne_eq_false_iff_eq, Drift.keepsDropped_eq_false_iff]
  exact and_congr_left fun _ => eq_comm

theorem networkPolicy_eq_false (h : Kept sent stored) :
    Drift.networkPolicy sent stored = false := by
  rw [Drift.networkPolicy, Json.isSubset_of_fills h.spec]
  rfl

/-- **When a written object counts as drifted**: a server that keeps what it was sent is asked for
another update exactly if something that the operator owns outright reads otherwise. -/
theorem needsUpdate_eq_false_iff (h : Kept sent stored) :
    sent.needsUpdate stored = false ↔ ReadsAlike sent stored := by
  have hreads : ReadsAlike sent stored ↔
      stored.metadata.labels.getD ∅ = sent.metadata.labels.getD ∅ ∧
        Drift.ReadsOwned sent.kind (.object sent.body) (.object stored.body) :=
    ⟨fun hreads => ⟨hreads.labels, hreads.owned⟩, fun hreads => ⟨hreads.1, hreads.2⟩⟩
  rw [needsUpdate, Bool.or_eq_false_iff, h.metadata_eq_false_iff, if_pos h.kind.symm, hreads]
  refine and_congr_right fun _ => ?_
  cases sent.kind with
  | configMap => exact h.configMap_eq_false_iff
  | deployment => exact h.deployment_eq_false_iff
  | virtualMachine => exact h.virtualMachine_eq_false_iff
  | service => exact h.service_eq_false_iff
  | networkPolicy => exact iff_of_true h.networkPolicy_eq_false trivial

end Kept

/-- **What has just been written has not drifted.** -/
theorem needsUpdate_of_filled {sent stored : Resource} (h : Filled sent stored) :
    sent.needsUpdate stored = false :=
  h.kept.needsUpdate_eq_false_iff.2 h.readsAlike

/-! ## Updates -/

/-- Of a Service's spec, an update changes addresses only. -/
theorem get_spec_update {desired live : Resource} {name : String} (hip : name ≠ "clusterIP")
    (hips : name ≠ "clusterIPs") :
    ((desired.update live).get "spec").get name = (desired.get "spec").get name := by
  unfold update
  split
  · rw [get_spec_withSpecField hips, get_spec_withSpecField hip]
    rfl
  · rfl

/-- An update differs from the desired object in nothing that counts as drift. -/
theorem needsUpdate_update (desired live stored : Resource) :
    (desired.update live).needsUpdate stored = desired.needsUpdate stored := by
  have hmetadata : Drift.metadata (desired.update live).metadata stored.metadata =
      Drift.metadata desired.metadata stored.metadata := by
    rw [update_metadata]
    rfl
  unfold needsUpdate
  rw [hmetadata, update_kind]
  by_cases hkind : desired.kind = .service
  · simp only [hkind, Drift.service]
    rw [get_spec_update (by decide) (by decide), get_spec_update (by decide) (by decide),
      get_spec_update (by decide) (by decide)]
  · have hget (name : String) : (desired.update live).get name = desired.get name := by
      rw [Resource.get, update_body_of_ne_service live hkind]
      rfl
    simp only [Drift.deployment, Drift.service, Drift.configMap, Drift.virtualMachine,
      Drift.networkPolicy, hget]

/-- An update settles the difference: the object that replaces another one has not drifted. -/
theorem needsUpdate_of_filled_update {desired live stored : Resource}
    (h : Filled (desired.update live) stored) : desired.needsUpdate stored = false := by
  rw [← needsUpdate_update desired live stored]
  exact needsUpdate_of_filled h

/-- **An update settles the difference.**  What a server stores for it has not drifted if the server
leaves alone what the operator owns; and of a server that only keeps what it was sent, nothing else
can open a difference again. -/
theorem update_settles (desired live stored : Resource) :
    ((desired.update live).Filled stored → desired.needsUpdate stored = false) ∧
      ((desired.update live).Kept stored →
        (desired.needsUpdate stored = false ↔ (desired.update live).ReadsAlike stored)) := by
  refine ⟨needsUpdate_of_filled_update, fun hkept => ?_⟩
  rw [← needsUpdate_update desired live stored]
  exact hkept.needsUpdate_eq_false_iff

/-- A Service of a node that listens on one port, and selects by the node and more. -/
def serviceOf (version : Option String) (selector spec : List (String × String)) : Resource :=
  .ofBody .service { Meta.empty with name := some "lab-r1", resourceVersion := version }
    [("spec", .ofMembers (
      ("ports", .array [.ofMembers [("port", .nat 830)]]) ::
      ("selector", .ofStringMap (.ofList (("node", "r1") :: selector))) ::
      spec.map fun (name, text) => (name, .string text)))]
    (List.forall_mem_singleton.2 (.ofMembers (by
      simpa using fun _ _ _ text _ _ h => h ▸ Json.Canonical.string text)))

/-- A Service whose selector was edited gets its selector back and keeps its address; what the
server fills in on the way is no drift. -/
theorem edited_service_settles :
    let desired := serviceOf none [] []
    let live := serviceOf (some "1") [("zone", "a")] [("clusterIP", "10.0.0.7")]
    let stored := serviceOf (some "2") []
      [("clusterIP", "10.0.0.7"), ("sessionAffinity", "None"), ("type", "ClusterIP")]
    desired.needsUpdate live = true ∧ desired.needsUpdate stored = false := by
  intro desired live stored
  have hsent : (desired.update live).body = [("spec", .object [("clusterIP", .string "10.0.0.7"),
      ("ports", .array [.object [("port", .nat 830)]]),
      ("selector", .object [("node", .string "r1")])])] := by decide +kernel
  refine ⟨by decide +kernel, (update_settles desired live stored).1 ?_⟩
  refine ⟨by decide +kernel, by decide +kernel, nofun, ?_, by decide +kernel, fun _ => .inr ?_⟩
  · rw [hsent]
    have hport : Fills (.object [("port", .nat 830)]) (.object [("port", .nat 830)]) :=
      .object (List.forall_mem_singleton.2 (.number _))
    have hnode : Fills (.object [("node", .string "r1")]) (.object [("node", .string "r1")]) :=
      .object (List.forall_mem_singleton.2 (.string _))
    refine .object (List.forall_mem_singleton.2 (.object ?_))
    simp only [List.forall_mem_cons]
    exact ⟨.string _, .array rfl (List.forall_mem_singleton.2 hport), hnode,
      List.forall_mem_nil _⟩
  · decide +kernel

end Resource

end NetLab.Kube
