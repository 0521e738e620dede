import NetLab.Proofs.Render.Objects

/-!
# What rendered workloads mount

The object that runs a node may mount ConfigMaps as volumes of its pod (`Resource.mounts`).  A
rendered one mounts the ConfigMap of its node, if there is one, and depends on whatever it mounts
(`Topology.dependsOnMounts_of_render`).
-/

namespace NetLab

open Kube

namespace Kube.Resource

/-- The object runs a node: it is a Deployment or a VirtualMachine. -/
def runsNode (r : Resource) : Bool := r.kind = .deployment || r.kind = .virtualMachine

/-- The names of the ConfigMaps that the pod of an object mounts as volumes. -/
def mounts (r : Resource) : List String :=
  match (r.get "spec").path ["template", "spec", "volumes"] with
  | .array volumes => volumes.filterMap fun volume => (volume.path ["configMap", "name"]).asString?
  | _ => []

theorem mounts_update {desired live : Resource} (h : desired.runsNode = true) :
    (desired.update live).mounts = desired.mounts := by
  have hkind : desired.kind ≠ .service := by
    intro heq
    simp [runsNode, heq] at h
  have hbody := update_body_of_ne_service live hkind
  simp only [mounts, Resource.get, hbody]

end Kube.Resource

/-- Whatever mounts a ConfigMap depends on it. -/
def NodePlan.DependsOnMounts (plan : NodePlan) : Prop :=
  ∀ planned ∈ plan.objects, planned.object.runsNode = true →
    ∀ name ∈ planned.object.mounts, ⟨.configMap, name⟩ ∈ planned.dependencies

namespace NodeContext

variable (ctx : NodeContext) (defaults : VmDefaults) (bundle? : Option ConfigBundle)

theorem mounts_deployment :
    (ctx.deployment bundle?).mounts = (bundle?.map ConfigBundle.name).toList := by
  have hvolumes : ((ctx.deployment bundle?).get "spec").path ["template", "spec", "volumes"] =
      (bundle?.map fun bundle => Json.array [bundle.volume]).getD .null :=
    (ctx.path_deployment bundle? _).trans (ctx.podSpec_volumes bundle?)
  rw [Resource.mounts, hvolumes]
  cases bundle? <;> simp [ConfigBundle.volume, Json.path, Json.get]

theorem mounts_virtualMachine :
    (ctx.virtualMachine defaults bundle?).mounts = (bundle?.map ConfigBundle.name).toList := by
  have hvolumes : ((ctx.virtualMachine defaults bundle?).get "spec").path
      ["template", "spec", "volumes"] = .array (volumes ctx.node.image
        (CloudInit.userData ctx.hostname ctx.node.startupConfig defaults.sshAuthorizedKeys)
        bundle?) :=
    (ctx.path_virtualMachine defaults bundle? _).trans (ctx.machineSpec_volumes defaults bundle?)
  rw [Resource.mounts, hvolumes]
  cases bundle? <;> simp [volumes, ConfigBundle.volume, Json.path, Json.get]

theorem mounts_workload :
    (ctx.workload defaults bundle?).mounts = (bundle?.map ConfigBundle.name).toList := by
  unfold workload
  split
  · exact ctx.mounts_deployment bundle?
  · exact ctx.mounts_virtualMachine defaults bundle?

/-- Of the objects of a node, the workload is the one that runs it. -/
theorem eq_workload_of_runsNode {planned : PlannedObject}
    (h : planned ∈ ctx.objects defaults bundle?) (hruns : planned.object.runsNode = true) :
    planned.object = ctx.workload defaults bundle? := by
  rcases ctx.mem_objects defaults bundle? h with ⟨bundle, -, rfl⟩ | rfl | rfl
  · cases hruns
  · rfl
  · cases hruns

theorem dependsOnMounts_objects (type : WorkloadType) :
    NodePlan.DependsOnMounts ⟨type, ctx.objects defaults bundle?⟩ := by
  intro planned hmem hruns name hname
  rcases ctx.mem_objects defaults bundle? hmem with ⟨bundle, -, rfl⟩ | rfl | rfl
  · cases hruns
  · rw [mounts_workload] at hname
    cases bundle? with
    | none => cases hname
    | some bundle =>
      obtain rfl : name = bundle.name := by simpa using hname
      exact List.mem_singleton.2 rfl
  · cases hruns

end NodeContext

/-- **Whatever a rendered workload mounts, it depends on.** -/
theorem Topology.dependsOnMounts_of_render {t : Topology} {c : Classifier} {namespaceName : String}
    {rendered : SortedMap String RenderedNode} (h : t.render c namespaceName = .ok rendered) :
    ∀ entry ∈ (rendered.map fun _ node => node.plan).entries, entry.2.DependsOnMounts := by
  refine RenderedNode.forall_plan fun entry hmem => ?_
  obtain ⟨definition, bundle?, -, -, hrendered⟩ := isRendered_of_render h entry hmem
  rw [hrendered]
  exact NodeContext.dependsOnMounts_objects _ _ _ _

end NetLab
