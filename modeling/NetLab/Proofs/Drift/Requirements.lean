import NetLab.Proofs.Json.Compact
import NetLab.Proofs.Json.Exact
import NetLab.Proofs.Render.Objects

/-!
# Drift of resource requirements

A workload states its resource requirements as two maps of quantities, requests and limits.  The
comparison finds a quantity that is new or has another value, and a map that was dropped.  It does
not find a quantity that was dropped from a map that keeps others: what is desired is still
contained in what is live.  `Resource.KeepsEntries` says that there is no such quantity, and then
what is kept of the requirements is the same (`kept_requirements_iff`).
-/

namespace NetLab

open Kube Kube.Drift
open Json (isSubset)

namespace Kube.Resource

/-- The resource requirements in the object that runs a node: of the first container in the pod of
a Deployment, or of the domain of a VirtualMachine. -/
def requirements (r : Resource) : Json :=
  match r.kind with
  | .deployment =>
    match (r.get "spec").path ["template", "spec", "containers"] with
    | .array (container :: _) => container.get "resources"
    | _ => .null
  | .virtualMachine => (r.get "spec").path ["template", "spec", "domain", "resources"]
  | _ => .null

/-- **No single entry was dropped**: where the desired object has requests or limits, it has every
entry that the live object has. -/
def KeepsEntries (desired live : Resource) : Prop :=
  ∀ field ∈ resourceFields, isSet (desired.requirements.get field) = true →
    ∀ name, (live.requirements.get field).get name ≠ .null →
      (desired.requirements.get field).get name ≠ .null

end Kube.Resource

/-- Requirements as the operator writes them: maps of texts under the fields that it owns. -/
structure IsRequirements (value : Json) : Prop where
  record : value.IsRecord
  fields : ∀ field, field ∉ resourceFields → value.get field = .null
  maps : ∀ field, value.get field = .null ∨ ∃ m : StringMap, value.get field = .ofStringMap m

namespace IsRequirements

variable {value : Json}

theorem null : IsRequirements .null where
  record := .null
  fields _ _ := rfl
  maps _ := .inl rfl

theorem record_get (h : IsRequirements value) (field : String) : (value.get field).IsRecord := by
  rcases h.maps field with hnull | ⟨m, hm⟩
  · exact hnull ▸ .null
  · exact hm ▸ .ofStringMap m

theorem entry (h : IsRequirements value) (field name : String) :
    (value.get field).get name = .null ∨
      ∃ text, (value.get field).get name = .string text := by
  rcases h.maps field with hnull | ⟨m, hm⟩
  · exact Or.inl (by rw [hnull]; rfl)
  · rw [hm, Json.get, Json.get?_ofStringMap]
    cases m.get? name with
    | none => exact Or.inl rfl
    | some text => exact Or.inr ⟨text, rfl⟩

theorem kept_entry (h : IsRequirements value) (field name : String) :
    ((value.get field).get name).kept = (value.get field).get name := by
  rcases h.entry field name with hnull | ⟨text, htext⟩
  · simp [hnull]
  · simp [htext]

/-- A map that says nothing has no entry. -/
theorem get_of_unset (h : IsRequirements value) {field : String}
    (hunset : isSet (value.get field) = false) (name : String) :
    (value.get field).get name = .null := by
  rcases h.maps field with hnull | ⟨m, hm⟩
  · rw [hnull]
    rfl
  · have hempty : m.entries = [] := by simpa [hm, Json.ofStringMap, Json.ofMap, isSet] using hunset
    rw [hm, Json.get, Json.get?_ofStringMap, SortedMap.get?, hempty]
    rfl

/-- **What is kept of requirements** in which no drift is found is the same exactly if no entry was
dropped from a map that keeps others. -/
theorem kept_eq_iff {desired live : Json} (h : IsRequirements desired) (h' : IsRequirements live)
    (hsubset : isSubset desired live = true)
    (hdropped : keepsDropped desired live resourceFields = false) :
    desired.kept = live.kept ↔ ∀ field ∈ resourceFields, isSet (desired.get field) = true →
      ∀ name, (live.get field).get name ≠ .null → (desired.get field).get name ≠ .null := by
  -- The entries are texts, so of each map it is they that are kept.
  have hentries : desired.kept = live.kept ↔
      ∀ field name, (desired.get field).get name = (live.get field).get name := by
    rw [Json.kept_eq_iff h.record h'.record]
    refine forall_congr' fun field => ?_
    rw [Json.kept_eq_iff (h.record_get field) (h'.record_get field)]
    simp only [h.kept_entry, h'.kept_entry]
  rw [hentries]
  constructor
  · intro heq field _ _ name hlive
    rwa [heq]
  · intro hkeeps field name
    rcases h.entry field name with hnull | ⟨text, htext⟩
    · rw [hnull]
      -- A live entry was either dropped alone or with the whole map, which is drift.
      by_cases hfield : field ∈ resourceFields
      · by_cases hset : isSet (desired.get field) = true
        · exact Classical.byContradiction fun hlive =>
            hkeeps field hfield hset name (fun heq => hlive heq.symm) hnull
        · have hlive := List.any_eq_false.1 hdropped field hfield
          simp only [hset, Bool.not_false, Bool.true_and, Bool.not_eq_true] at hlive
          exact (h'.get_of_unset hlive name).symm
      · rw [h'.fields field hfield]
        rfl
    · -- A desired entry is live with the same text.
      have hexact := Json.isSubset_get (Json.isSubset_get hsubset field) name
      exact htext ▸ Json.Exact.string text _ (htext ▸ hexact)

/-! ## The requirements of rendered workloads -/

/-- Requests and limits, each a map or missing, are requirements. -/
theorem ofOptional {requests limits : Option Json}
    (hrequests : ∀ value, requests = some value → ∃ m : StringMap, value = .ofStringMap m)
    (hlimits : ∀ value, limits = some value → ∃ m : StringMap, value = .ofStringMap m) :
    IsRequirements (.ofOptional [("requests", requests), ("limits", limits)]) where
  record := .ofOptional _
  fields field hfield := by
    simp only [resourceFields, List.mem_cons, List.not_mem_nil, or_false, not_or] at hfield
    simp [Json.get, hfield]
  maps field := by
    have hmap {value? : Option Json}
        (h : ∀ value, value? = some value → ∃ m : StringMap, value = .ofStringMap m) :
        value?.getD .null = .null ∨ ∃ m : StringMap, value?.getD .null = .ofStringMap m := by
      cases value? with
      | none => exact Or.inl rfl
      | some value => exact Or.inr (h value rfl)
    by_cases hfield : field = "limits"
    · simpa [Json.get, hfield] using hmap hlimits
    · by_cases hfield' : field = "requests"
      · simpa [Json.get, hfield'] using hmap hrequests
      · simp [Json.get, hfield, hfield']

theorem ofSpec (spec : ResourceSpec) : IsRequirements spec.requirements := by
  have hquantities (m : StringMap) (value : Json) (h : ResourceSpec.quantities m = some value) :
      ∃ m : StringMap, value = .ofStringMap m := by
    unfold ResourceSpec.quantities at h
    split at h
    · cases h
    · exact ⟨m, (Option.some.inj h).symm⟩
  exact ofOptional (hquantities _) (hquantities _)

theorem ofSize (size : MachineSize) : IsRequirements size.requirements := by
  refine ofOptional (fun value h => ?_) fun value h => ?_
  · obtain rfl := Option.some.inj h
    refine ⟨.ofList [("memory", size.memory), ("cpu", size.cpu)], ?_⟩
    rw [Json.ofStringMap_ofList]
    rfl
  · split at h
    · cases h
    · exact ⟨size.limits, (Option.some.inj h).symm⟩

end IsRequirements

namespace NodeContext

variable (ctx : NodeContext) (defaults : VmDefaults) (bundle? : Option ConfigBundle)

/-- The requirements of the container that runs the node; `null` if it has none. -/
def containerRequirements : Json :=
  (ctx.node.resources.map ResourceSpec.requirements).getD .null

theorem isRequirements_container : IsRequirements ctx.containerRequirements := by
  unfold containerRequirements
  cases ctx.node.resources with
  | none => exact .null
  | some spec => exact .ofSpec spec

theorem requirements_deployment :
    (ctx.deployment bundle?).requirements = ctx.containerRequirements := by
  have hcontainers : ((ctx.deployment bundle?).get "spec").path
      ["template", "spec", "containers"] = .array [ctx.container bundle?] :=
    (ctx.path_deployment bundle? _).trans (ctx.podSpec_containers bundle?)
  have hresources : (ctx.container bundle?).get "resources" = ctx.containerRequirements := by
    simp [container, containerRequirements, Json.get]
  simp only [Resource.requirements, show (ctx.deployment bundle?).kind = .deployment from rfl,
    hcontainers, hresources]

theorem requirements_virtualMachine : (ctx.virtualMachine defaults bundle?).requirements =
    (MachineSize.ofNode ctx.node defaults).requirements := by
  have hresources : ((ctx.virtualMachine defaults bundle?).get "spec").path
      ["template", "spec", "domain", "resources"] =
        (MachineSize.ofNode ctx.node defaults).requirements :=
    (ctx.path_virtualMachine defaults bundle? _).trans (ctx.machineSpec_resources defaults bundle?)
  simp only [Resource.requirements, show (ctx.virtualMachine defaults bundle?).kind =
    .virtualMachine from rfl, hresources]

end NodeContext

end NetLab
