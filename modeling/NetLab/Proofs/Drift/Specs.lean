import NetLab.Proofs.Drift.Completeness

/-!
# What a settled workload holds of what was asked for

The live object of a workload may have been edited by anyone.  If no drift is found in it, then the
spec of a VirtualMachine holds everything that is set in the desired one.  Of a Deployment the same
is true of the pod template only: its replicas, its strategy and its selector are not compared, so a
live Deployment holds its whole spec exactly if it happens to hold those three
(`Topology.specs_of_settled`).
-/

namespace NetLab

open Kube Kube.Drift
open Json (isSubset)

/-- The fields of a Deployment's spec beside its template. -/
def fieldsBesideTemplate : List String := ["replicas", "selector", "strategy"]

namespace NodeContext

variable {ctx : NodeContext} {bundle? : Option ConfigBundle} {live : Resource}

theorem deployment_spec (ctx : NodeContext) (bundle? : Option ConfigBundle) :
    (ctx.deployment bundle?).get "spec" = .ofMembers [
      ("replicas", .nat 1),
      ("selector", .ofMembers [("matchLabels", .ofStringMap ctx.selector)]),
      ("strategy", .ofMembers [("type", .string "Recreate")]),
      ("template", ctx.podTemplate bundle?)] := by
  simp [deployment, Json.get]

theorem deployment_template (ctx : NodeContext) (bundle? : Option ConfigBundle) :
    ((ctx.deployment bundle?).get "spec").get "template" = ctx.podTemplate bundle? := by
  simp [deployment_spec, Json.get]

/-- Labels that are compared exactly are in the live object as they should be. -/
theorem labels_of_textsOrNone {value : Json}
    (h : textsOrNone (.ofStringMap ctx.labels) = textsOrNone value) :
    value = .ofStringMap ctx.labels := by
  have hne : textsOrNone (.ofStringMap ctx.labels) ≠ [] := by
    intro hempty
    have hget : (Json.ofStringMap ctx.labels).get? Labels.workloadType =
        Assoc.find? Labels.workloadType (textsOrNone (.ofStringMap ctx.labels)) := rfl
    rw [hempty] at hget
    simp [labels, Assoc.find?] at hget
  cases value with
  | object members => exact congrArg Json.object h.symm
  | null | bool _ | number _ | string _ | array _ => exact absurd h hne

/-- A Deployment in which no drift is found has the pod template that was asked for. -/
theorem template_of_settled (h : Drift.deployment (ctx.deployment bundle?) live = false) :
    isSubset (ctx.podTemplate bundle?) ((live.get "spec").get "template") = true := by
  have hlabels : (ctx.podTemplate bundle?).path ["metadata", "labels"] =
      .ofStringMap ctx.labels := by
    simp [podTemplate, Json.path, Json.get]
  have hlabelsSubset : isSubset (.ofStringMap ctx.labels) (.ofStringMap ctx.labels) = true :=
    Json.isSubset_of_fills (Json.Canonical.ofStringMap _).fills_self
  simp only [Drift.deployment, Drift.pod, deployment_template, hlabels, Bool.or_eq_false_iff,
    Bool.not_eq_false', bne_eq_false_iff_eq] at h
  obtain ⟨⟨hsame, hannotations⟩, ⟨hpod, -⟩, -⟩ := h
  generalize (live.get "spec").get "template" = template at *
  replace hsame : (template.get "metadata").get "labels" = .ofStringMap ctx.labels :=
    labels_of_textsOrNone hsame
  -- The labels are there, and so are the objects that they are in.
  obtain ⟨metadata, hmetadata⟩ : ∃ metadata, template.get "metadata" = .object metadata :=
    Json.exists_object_of_get hsame (by rintro ⟨⟩)
  obtain ⟨members, rfl⟩ : ∃ members, template = .object members :=
    Json.exists_object_of_get hmetadata (by rintro ⟨⟩)
  rw [hmetadata] at hsame
  refine Json.isSubset_ofMembers (List.forall_mem_cons.2 ⟨?_, List.forall_mem_singleton.2 ?_⟩)
  · rw [hmetadata]
    refine Json.isSubset_ofOptional (List.forall_mem_cons.2 ⟨?_, List.forall_mem_singleton.2 ?_⟩)
    · rintro value ⟨⟩
      rw [hsame]
      exact hlabelsSubset
    · intro value hvalue
      have hpath : (ctx.podTemplate bundle?).path ["metadata", "annotations"] = value := by
        simp only at hvalue
        simp [podTemplate, Json.path, Json.get, hvalue]
      have hlive : (Json.object members).path ["metadata", "annotations"] =
          (Json.object metadata).get "annotations" := congrArg (·.get "annotations") hmetadata
      rwa [hpath, hlive] at hannotations
  · simpa [podTemplate, Json.get] using hpod

/-- It has the whole spec exactly if it has the fields beside the template, too. -/
theorem spec_iff_of_settled (h : Drift.deployment (ctx.deployment bundle?) live = false) :
    isSubset ((ctx.deployment bundle?).get "spec") (live.get "spec") = true ↔
      ∀ field ∈ fieldsBesideTemplate,
        isSubset (((ctx.deployment bundle?).get "spec").get field) ((live.get "spec").get field) =
          true := by
  refine ⟨fun hspec field _ => Json.isSubset_get hspec field, fun hfields => ?_⟩
  have htemplate := template_of_settled h
  have hpolicy := Json.isSubset_path htemplate ["spec", "restartPolicy"]
  have halways : (ctx.podTemplate bundle?).path ["spec", "restartPolicy"] = .string "Always" := by
    simp [podTemplate, podSpec, Json.path, Json.get]
  rw [halways] at hpolicy
  -- The policy of the pod is there, and so is the object that its template is in.
  cases hlive : live.get "spec" with
  | object members =>
    rw [hlive] at hfields htemplate
    rw [deployment_spec] at hfields ⊢
    simp only [fieldsBesideTemplate, List.forall_mem_cons] at hfields
    obtain ⟨hreplicas, hselector, hstrategy, -⟩ := hfields
    refine Json.isSubset_ofMembers ?_
    simp only [List.forall_mem_cons]
    refine ⟨?_, ?_, ?_, htemplate, List.forall_mem_nil _⟩
    · simpa [Json.get] using hreplicas
    · simpa [Json.get] using hselector
    · simpa [Json.get] using hstrategy
  | null | bool _ | number _ | string _ | array _ =>
    rw [hlive] at hpolicy
    cases Json.Exact.string _ _ hpolicy

end NodeContext

namespace Kube.Resource

/-- Beside the metadata, the comparison of a Deployment looks at the template only. -/
theorem needsUpdate_of_same_template {desired live edited : Resource}
    (hdesired : desired.kind = .deployment) (hkind : edited.kind = live.kind)
    (hmetadata : edited.metadata = live.metadata)
    (htemplate : (edited.get "spec").get "template" = (live.get "spec").get "template") :
    desired.needsUpdate edited = desired.needsUpdate live := by
  simp only [needsUpdate, hdesired, hkind, hmetadata, Drift.deployment, htemplate]

/-- The object with three replicas that are replaced one by one, and the selector of another one. -/
def scaled (r : Resource) : Resource :=
  r.set "spec" (.ofMembers [
    ("replicas", .nat 3),
    ("selector", .ofMembers [("matchLabels", .ofMembers [("node", .string "r2")])]),
    ("strategy", .ofMembers [("type", .string "RollingUpdate")]),
    ("template", (r.get "spec").get "template")])

end Kube.Resource

namespace Topology

variable {t : Topology} {c : Classifier} {namespaceName : String} {desired live : Resource}

/-- **What a workload in which no drift is found holds**: a VirtualMachine everything that is set in
its spec, a Deployment everything that is set in its pod template.  Whether the Deployment holds its
whole spec depends on its replicas, selector and strategy, and no edit of these is found. -/
theorem specs_of_settled (hdesired : t.AsksFor c namespaceName desired)
    (hsettled : desired.needsUpdate live = false) :
    (desired.kind = .virtualMachine → isSubset (desired.get "spec") (live.get "spec") = true) ∧
      (desired.kind = .deployment →
        isSubset ((desired.get "spec").get "template") ((live.get "spec").get "template") = true ∧
          (isSubset (desired.get "spec") (live.get "spec") = true ↔
            ∀ field ∈ fieldsBesideTemplate,
              isSubset ((desired.get "spec").get field) ((live.get "spec").get field) = true) ∧
          ∀ edited : Resource, edited.kind = live.kind → edited.metadata = live.metadata →
            (edited.get "spec").get "template" = (live.get "spec").get "template" →
              desired.needsUpdate edited = false) := by
  have hdrift := Resource.drift_of_settled hsettled
  refine ⟨fun hkind => ?_, fun hkind => ?_⟩
  · simp only [hkind, Drift.virtualMachine, Bool.or_eq_false_iff, Bool.not_eq_false'] at hdrift
    exact hdrift.1.1
  · cases Requested.of_asksFor hdesired with
    | deployment _ _ bundle? =>
      rename_i ctx _ _
      refine ⟨?_, NodeContext.spec_iff_of_settled hdrift, fun edited hkind' hmetadata hsame => ?_⟩
      · rw [NodeContext.deployment_template]
        exact NodeContext.template_of_settled hdrift
      · rw [Resource.needsUpdate_of_same_template hkind hkind' hmetadata hsame, hsettled]
    | configMap _ _ bundle | virtualMachine _ _ defaults bundle? | service _ _
    | linkPolicy topology node peers | managementPolicy topology => cases hkind

/-! ## A Deployment that somebody has scaled -/

/-- No drift is found in it, though it holds none of the fields beside the template. -/
theorem scaled_settles : ∃ desired : Resource, oneNode.AsksFor .bare "lab" desired ∧
    desired.kind = .deployment ∧ desired.scaled.key = desired.key ∧
      desired.needsUpdate desired.scaled = false ∧
      ∀ field ∈ fieldsBesideTemplate, isSubset ((desired.get "spec").get field)
        ((desired.scaled.get "spec").get field) = false := by
  have hcheck : (match oneNode.render .bare "lab" with
      | .ok rendered =>
        (NodePlan.allObjects (rendered.map fun _ node => node.plan)).any fun planned =>
          planned.object.kind = .deployment && planned.object.scaled.key = planned.object.key &&
            !planned.object.needsUpdate planned.object.scaled &&
            fieldsBesideTemplate.all fun field => !isSubset ((planned.object.get "spec").get field)
              ((planned.object.scaled.get "spec").get field)
      | .error _ => false) = true := by decide +kernel
  cases hrender : oneNode.render .bare "lab" with
  | error e => simp [hrender] at hcheck
  | ok rendered =>
    simp only [hrender, List.any_eq_true, Bool.and_eq_true, decide_eq_true_eq, Bool.not_eq_true',
      List.all_eq_true] at hcheck
    obtain ⟨planned, hmem, ⟨⟨hkind, hkey⟩, hsettled⟩, hfields⟩ := hcheck
    exact ⟨planned.object, .inl ⟨rendered, hrender, planned, hmem, rfl⟩, hkind, hkey, hsettled,
      hfields⟩

/-- It still holds its template, but not its spec. -/
theorem scaled_holds_template : ∃ desired : Resource, oneNode.AsksFor .bare "lab" desired ∧
    desired.needsUpdate desired.scaled = false ∧
      isSubset ((desired.get "spec").get "template")
        ((desired.scaled.get "spec").get "template") = true ∧
      ¬ isSubset (desired.get "spec") (desired.scaled.get "spec") = true := by
  obtain ⟨desired, hdesired, hkind, -, hsettled, hfields⟩ := scaled_settles
  obtain ⟨htemplate, hspec, -⟩ := (specs_of_settled hdesired hsettled).2 hkind
  refine ⟨desired, hdesired, hsettled, htemplate, fun hholds => ?_⟩
  have hreplicas := hspec.1 hholds "replicas" (by decide)
  rw [hfields "replicas" (by decide)] at hreplicas
  cases hreplicas

/-- **Not every settled workload holds its spec.** -/
theorem not_every_spec_is_held : ¬ ∀ (t : Topology) (c : Classifier) (namespaceName : String)
    (desired live : Resource), t.AsksFor c namespaceName desired →
      desired.kind = .deployment ∨ desired.kind = .virtualMachine → live.key = desired.key →
        desired.needsUpdate live = false →
          isSubset (desired.get "spec") (live.get "spec") = true := by
  intro hheld
  obtain ⟨desired, hdesired, hkind, hkey, hsettled, hfields⟩ := scaled_settles
  have hspec := hheld _ _ _ desired desired.scaled hdesired (.inl hkind) hkey hsettled
  have hreplicas := Json.isSubset_get hspec "replicas"
  rw [hfields "replicas" (by decide)] at hreplicas
  cases hreplicas

end Topology

end NetLab
