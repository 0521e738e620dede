import NetLab.Proofs.Drift.Requirements
import NetLab.Proofs.Render.Identity

/-!
# Drift of rendered workloads

Two versions of a node may be rendered as one object.  If no drift is found between the two, then
they are the same but for the resource requirements (`kept_podTemplate_iff`, `kept_machineSpec_iff`),
and so they say the same exactly if no single entry was dropped from those
(`deployment_settled_iff`, `virtualMachine_settled_iff`).
-/

namespace NetLab

open Kube Kube.Drift
open Json (isSubset Exact)

namespace Kube.Resource

/-- Two objects of one kind and metadata say the same exactly if their specs do. -/
theorem compact_ofBody_eq_iff {kind : Kind} {metadata : Meta} {spec spec' : Json}
    (h : ∀ member ∈ [("spec", spec)], member.2.Canonical)
    (h' : ∀ member ∈ [("spec", spec')], member.2.Canonical) :
    (ofBody kind metadata [("spec", spec)] h).toJson.compact =
        (ofBody kind metadata [("spec", spec')] h').toJson.compact ↔ spec.kept = spec'.kept := by
  have hbody (spec : Json) (h : ∀ member ∈ [("spec", spec)], member.2.Canonical) :
      (ofBody kind metadata [("spec", spec)] h).toJson =
        .ofMembers [("apiVersion", .string kind.header.apiVersion),
          ("kind", .string kind.header.kind), ("metadata", metadata.toJson), ("spec", spec)] := rfl
  rw [hbody, hbody, Json.compact_ofMembers_eq_iff,
    Json.kept_eq_iff_of_differ (.ofMembers _) (.ofMembers _) "spec" fun other hother => by
      simp [Json.get, hother]]
  simp [Json.get]

end Kube.Resource

namespace NodeContext

variable {ctx ctx' : NodeContext} {defaults defaults' : VmDefaults}
  {bundle? bundle'? : Option ConfigBundle}

/-! ## Deployments -/

theorem exact_envEntry (name value name' value' : String) :
    Exact (envEntry name value) (envEntry name' value') :=
  .ofMembers [("name", .string name, .string name'), ("value", .string value, .string value')]
    (by simp [Exact.string])

theorem exact_volume (bundle bundle' : ConfigBundle) : Exact bundle.volume bundle'.volume := by
  have hname := Exact.ofText "name" bundle.name bundle'.name
  exact .ofMembers [("name", .string ConfigBundle.volumeName, .string ConfigBundle.volumeName),
    ("configMap", .ofMembers [("name", .string bundle.name)],
      .ofMembers [("name", .string bundle'.name)])] (by simp [hname])

theorem exact_mount (entry entry' : ConfigEntry) :
    Exact (ConfigBundle.mount entry) (ConfigBundle.mount entry') :=
  .ofMembers [("name", .string ConfigBundle.volumeName, .string ConfigBundle.volumeName),
    ("mountPath", .string entry.mountPath, .string entry'.mountPath),
    ("subPath", .string entry.key, .string entry'.key), ("readOnly", .bool true, .bool true)]
    (by simp [Exact.string])

theorem exact_volumeMounts (bundle bundle' : ConfigBundle) :
    Exact (.array bundle.volumeMounts) (.array bundle'.volumeMounts) :=
  .array_map exact_mount _ _

theorem exact_env (ctx ctx' : NodeContext) : Exact (.array ctx.env) (.array ctx'.env) := by
  have hentry (ctx : NodeContext) : ∀ item ∈ ctx.env, ∃ name value, item = envEntry name value := by
    intro item hitem
    simp only [env, List.mem_cons, List.mem_map] at hitem
    rcases hitem with rfl | rfl | ⟨entry, -, rfl⟩ <;> exact ⟨_, _, rfl⟩
  refine .array_of_mem fun item hitem other hother => ?_
  obtain ⟨name, value, rfl⟩ := hentry ctx item hitem
  obtain ⟨name', value', rfl⟩ := hentry ctx' other hother
  exact exact_envEntry _ _ _ _

theorem isRecord_podSpec (ctx : NodeContext) (bundle? : Option ConfigBundle) :
    (ctx.podSpec bundle?).IsRecord :=
  .ofOptional _

theorem container_volumeMounts (ctx : NodeContext) (bundle? : Option ConfigBundle) :
    (ctx.container bundle?).get "volumeMounts" =
      (bundle?.map fun bundle => Json.array bundle.volumeMounts).getD .null := by
  simp [container, Json.get]

theorem container_resources (ctx : NodeContext) (bundle? : Option ConfigBundle) :
    (ctx.container bundle?).get "resources" = ctx.containerRequirements := by
  simp [container, containerRequirements, Json.get]

/-- What the comparison of two Deployments has looked at if it finds no drift. -/
theorem pod_of_settled
    (h : Drift.deployment (ctx.deployment bundle?) (ctx'.deployment bundle'?) = false) :
    isSubset (ctx.podSpec bundle?) (ctx'.podSpec bundle'?) = true ∧
      keepsDropped (ctx.podSpec bundle?) (ctx'.podSpec bundle'?) podFields = false ∧
      isSubset (ctx.container bundle?) (ctx'.container bundle'?) = true ∧
      containerKeepsDropped (ctx.container bundle?) (ctx'.container bundle'?) = false := by
  have hpod (ctx : NodeContext) (bundle? : Option ConfigBundle) :
      (((ctx.deployment bundle?).get "spec").get "template").get "spec" = ctx.podSpec bundle? :=
    ctx.path_deployment bundle? []
  simp only [Drift.deployment, Drift.pod, hpod, podSpec_containers, Bool.or_eq_false_iff,
    Bool.not_eq_false'] at h
  obtain ⟨-, ⟨hsubset, hdropped⟩, hcontainer⟩ := h
  have hcontainers := Json.isSubset_get hsubset "containers"
  rw [podSpec_containers, podSpec_containers, Json.isSubset_array] at hcontainers
  exact ⟨hsubset, hdropped, by simpa using hcontainers.2, by simpa using hcontainer⟩

/-- A pod in which no drift is found has the volumes that it should have, and its container the
mounts. -/
theorem bundle_of_settled (hsubset : isSubset (ctx.podSpec bundle?) (ctx'.podSpec bundle'?) = true)
    (hdropped : keepsDropped (ctx.podSpec bundle?) (ctx'.podSpec bundle'?) podFields = false)
    (hcontainer : isSubset (ctx.container bundle?) (ctx'.container bundle'?) = true) :
    (bundle?.map fun bundle => Json.array [bundle.volume]) =
        (bundle'?.map fun bundle => Json.array [bundle.volume]) ∧
      (bundle?.map fun bundle => Json.array bundle.volumeMounts) =
        bundle'?.map fun bundle => Json.array bundle.volumeMounts := by
  have hvolume := Json.isSubset_get hsubset "volumes"
  have hmount := Json.isSubset_get hcontainer "volumeMounts"
  rw [podSpec_volumes, podSpec_volumes] at hvolume
  rw [container_volumeMounts, container_volumeMounts] at hmount
  cases bundle? with
  | none =>
    cases bundle'? with
    | none => exact ⟨rfl, rfl⟩
    | some bundle' =>
      -- The volume was dropped, which is drift.
      simp [keepsDropped, podFields, podSpec_volumes, isSet] at hdropped
  | some bundle =>
    cases bundle'? with
    | none =>
      -- The volume is new, which is drift too.
      simp [isSubset] at hvolume
    | some bundle' =>
      have hexact : Exact (.array [bundle.volume]) (.array [bundle'.volume]) :=
        .array (by simpa using exact_volume bundle bundle')
      exact ⟨congrArg some (hexact hvolume),
        congrArg some (exact_volumeMounts bundle bundle' hmount)⟩

/-- Of two containers in which no drift is found, what is kept depends on their requirements. -/
theorem kept_container_iff
    (hsubset : isSubset (ctx.container bundle?) (ctx'.container bundle'?) = true)
    (hmounts : (bundle?.map fun bundle => Json.array bundle.volumeMounts) =
      bundle'?.map fun bundle => Json.array bundle.volumeMounts) :
    (ctx.container bundle?).kept = (ctx'.container bundle'?).kept ↔
      ctx.containerRequirements.kept = ctx'.containerRequirements.kept := by
  have himage : ctx.node.image = ctx'.node.image := by
    have himage := Json.isSubset_get hsubset "image"
    simpa [container, Json.get, isSubset, eq_comm] using himage
  have henv : Json.array ctx.env = Json.array ctx'.env := by
    have henv := Json.isSubset_get hsubset "env"
    exact exact_env ctx ctx' (by simpa [container, Json.get] using henv)
  have hrecord (ctx : NodeContext) (bundle? : Option ConfigBundle) :
      (ctx.container bundle?).IsRecord := .ofOptional _
  rw [Json.kept_eq_iff_of_differ (hrecord ctx bundle?) (hrecord ctx' bundle'?) "resources",
    container_resources, container_resources]
  intro other hother
  simp [container, Json.get, hother, himage, henv, hmounts]

/-- Of two pod templates of a node with the same volumes, what is kept depends on the container. -/
theorem kept_podTemplate_iff (h : ctx.Identified) (h' : ctx'.Identified) (hagrees : ctx.Agrees ctx')
    (hvolumes : (bundle?.map fun bundle => Json.array [bundle.volume]) =
      bundle'?.map fun bundle => Json.array [bundle.volume]) :
    (ctx.podTemplate bundle?).kept = (ctx'.podTemplate bundle'?).kept ↔
      (ctx.container bundle?).kept = (ctx'.container bundle'?).kept := by
  have hrecord (ctx : NodeContext) (bundle? : Option ConfigBundle) :
      (ctx.podTemplate bundle?).IsRecord := .ofMembers _
  calc (ctx.podTemplate bundle?).kept = (ctx'.podTemplate bundle'?).kept
    _ ↔ (ctx.podSpec bundle?).kept = (ctx'.podSpec bundle'?).kept := by
      rw [← podTemplate_spec, ← podTemplate_spec]
      refine Json.kept_eq_iff_of_differ (hrecord ctx bundle?) (hrecord ctx' bundle'?) "spec" ?_
      intro other hother
      simp [podTemplate, Json.get, hother, hagrees.labels, h.annotations, h'.annotations]
    -- The hostname comes from the name of the node, and the volumes are the same.
    _ ↔ (Json.array [ctx.container bundle?]).kept = (Json.array [ctx'.container bundle'?]).kept := by
      rw [← podSpec_containers, ← podSpec_containers]
      refine Json.kept_eq_iff_of_differ (isRecord_podSpec ctx bundle?)
        (isRecord_podSpec ctx' bundle'?) "containers" fun other hother => ?_
      simp [podSpec, Json.get, hother, hagrees.hostname, hvolumes]
    _ ↔ (ctx.container bundle?).kept = (ctx'.container bundle'?).kept := by
      rw [Json.kept_singleton_eq_iff]
      exact Json.compact_ofMembers_eq_iff

/-- **Of a Deployment no other edit goes unseen.** -/
theorem deployment_settled_iff (h : ctx.Identified) (h' : ctx'.Identified)
    (hnamespace : ctx.namespaceName = ctx'.namespaceName) (hname : ctx.name = ctx'.name)
    (hsettled : (ctx.deployment bundle?).needsUpdate (ctx'.deployment bundle'?) = false) :
    (ctx.deployment bundle?).toJson.compact = (ctx'.deployment bundle'?).toJson.compact ↔
      (ctx.deployment bundle?).KeepsEntries (ctx'.deployment bundle'?) := by
  obtain ⟨hagrees, hmetadata⟩ := workloadMetadata_eq h h' hnamespace hname
    (Resource.metadata_of_settled hsettled)
  have hdrift : Drift.deployment (ctx.deployment bundle?) (ctx'.deployment bundle'?) = false :=
    Resource.drift_of_settled hsettled
  obtain ⟨hpod, hdropped, hcontainer, hcontainerDropped⟩ := pod_of_settled hdrift
  obtain ⟨hvolumes, hmounts⟩ := bundle_of_settled hpod hdropped hcontainer
  have hrequirements := Json.isSubset_get hcontainer "resources"
  simp only [containerKeepsDropped, Bool.or_eq_false_iff] at hcontainerDropped
  obtain ⟨-, hentries⟩ := hcontainerDropped
  rw [container_resources, container_resources] at hrequirements hentries
  calc (ctx.deployment bundle?).toJson.compact = (ctx'.deployment bundle'?).toJson.compact
    _ ↔ (ctx.podTemplate bundle?).kept = (ctx'.podTemplate bundle'?).kept := by
      rw [deployment, deployment, ← hmetadata, Resource.compact_ofBody_eq_iff,
        Json.kept_eq_iff_of_differ (.ofMembers _) (.ofMembers _) "template" fun other hother => by
          simp [Json.get, hother, hagrees.selector]]
      simp [Json.get]
    _ ↔ ctx.containerRequirements.kept = ctx'.containerRequirements.kept := by
      rw [kept_podTemplate_iff h h' hagrees hvolumes, kept_container_iff hcontainer hmounts]
    _ ↔ (ctx.deployment bundle?).KeepsEntries (ctx'.deployment bundle'?) := by
      rw [Resource.KeepsEntries, requirements_deployment, requirements_deployment]
      exact ctx.isRequirements_container.kept_eq_iff ctx'.isRequirements_container hrequirements
        hentries

/-! ## VirtualMachines -/

theorem exact_volumes (image userData image' userData' : String)
    (bundle? bundle'? : Option ConfigBundle) :
    Exact (.array (volumes image userData bundle?)) (.array (volumes image' userData' bundle'?)) := by
  have hvolume (name field member text text' : String) :
      Exact (.ofMembers [("name", .string name), (field, .ofMembers [(member, .string text)])])
        (.ofMembers [("name", .string name), (field, .ofMembers [(member, .string text')])]) := by
    have hmember := Exact.ofText member text text'
    exact .ofMembers [("name", .string name, .string name),
      (field, .ofMembers [(member, .string text)], .ofMembers [(member, .string text')])]
      (by simp [hmember])
  refine .array ?_
  cases bundle? <;> cases bundle'? <;> simp [volumes, hvolume, exact_volume]

/-- As many disks are the same disks. -/
theorem exact_disks (bundle? bundle'? : Option ConfigBundle) :
    Exact (.array (disks bundle?)) (.array (disks bundle'?)) := by
  refine .array ?_
  cases bundle? <;> cases bundle'? <;> simp [disks]

/-- As many interfaces are for as many links. -/
theorem links_of_interfaces (h : isSubset (.array ctx.interfaces) (.array ctx'.interfaces) = true) :
    ctx.linkNumbers = ctx'.linkNumbers := by
  have hlength := (Json.isSubset_array.1 h).1
  simp only [interfaces, linkNumbers, List.length_cons, List.length_map, List.length_range',
    Nat.add_right_cancel_iff] at hlength
  rw [linkNumbers, linkNumbers, hlength]

/-- What the comparison of two VirtualMachines has looked at if it finds no drift. -/
theorem machineSpec_of_settled (h : Drift.virtualMachine (ctx.virtualMachine defaults bundle?)
      (ctx'.virtualMachine defaults' bundle'?) = false) :
    isSubset (ctx.machineSpec defaults bundle?) (ctx'.machineSpec defaults' bundle'?) = true ∧
      keepsDropped (MachineSize.ofNode ctx.node defaults).requirements
        (MachineSize.ofNode ctx'.node defaults').requirements resourceFields = false := by
  simp only [Drift.virtualMachine, Bool.or_eq_false_iff, Bool.not_eq_false'] at h
  obtain ⟨⟨hsubset, -⟩, hdropped⟩ := h
  rw [path_virtualMachine, path_virtualMachine, machineSpec_resources, machineSpec_resources]
    at hdropped
  have hpod := Json.isSubset_path hsubset ["template", "spec"]
  rw [path_virtualMachine, path_virtualMachine] at hpod
  exact ⟨hpod, hdropped⟩

/-- Of two machines of a node in which no drift is found, what is kept depends on their
requirements. -/
theorem kept_machineSpec_iff (hagrees : ctx.Agrees ctx') (hname : ctx.name = ctx'.name)
    (hsubset : isSubset (ctx.machineSpec defaults bundle?) (ctx'.machineSpec defaults' bundle'?) =
      true) :
    (ctx.machineSpec defaults bundle?).kept = (ctx'.machineSpec defaults' bundle'?).kept ↔
      (MachineSize.ofNode ctx.node defaults).requirements.kept =
        (MachineSize.ofNode ctx'.node defaults').requirements.kept := by
  have hdomain := Json.isSubset_get hsubset "domain"
  rw [machineSpec_domain, machineSpec_domain] at hdomain
  have hdevices := Json.isSubset_get hdomain "devices"
  rw [domain_devices, domain_devices] at hdevices
  have hdisks : Json.array (disks bundle?) = .array (disks bundle'?) := by
    have hdisks := Json.isSubset_get hdevices "disks"
    exact exact_disks bundle? bundle'? (by simpa [Json.get] using hdisks)
  have hlinks : ctx.linkNumbers = ctx'.linkNumbers := by
    have hinterfaces := Json.isSubset_get hdevices "interfaces"
    exact links_of_interfaces (by simpa [Json.get] using hinterfaces)
  have hvolumes := Json.isSubset_get hsubset "volumes"
  rw [machineSpec_volumes, machineSpec_volumes] at hvolumes
  replace hvolumes := exact_volumes _ _ _ _ _ _ hvolumes
  rw [hagrees.hostname] at hvolumes
  have hspec (ctx : NodeContext) (defaults : VmDefaults) (bundle? : Option ConfigBundle) :
      (ctx.machineSpec defaults bundle?).IsRecord := .ofMembers _
  have hrecord (ctx : NodeContext) (defaults : VmDefaults) (bundle? : Option ConfigBundle) :
      (ctx.domain defaults bundle?).IsRecord := .ofMembers _
  calc (ctx.machineSpec defaults bundle?).kept = (ctx'.machineSpec defaults' bundle'?).kept
    _ ↔ (ctx.domain defaults bundle?).kept = (ctx'.domain defaults' bundle'?).kept := by
      rw [← machineSpec_domain, ← machineSpec_domain]
      refine Json.kept_eq_iff_of_differ (hspec ctx defaults bundle?)
        (hspec ctx' defaults' bundle'?) "domain" fun other hother => ?_
      simp [machineSpec, networks, Json.get, hother, hagrees.hostname, hlinks, hname, hvolumes]
    _ ↔ (MachineSize.ofNode ctx.node defaults).requirements.kept =
        (MachineSize.ofNode ctx'.node defaults').requirements.kept := by
      rw [← domain_resources ctx defaults bundle?, ← domain_resources ctx' defaults' bundle'?]
      refine Json.kept_eq_iff_of_differ (hrecord ctx defaults bundle?)
        (hrecord ctx' defaults' bundle'?) "resources" fun other hother => ?_
      simp [domain, interfaces, Json.get, hother, hlinks, hdisks]

/-- **Of a VirtualMachine no other edit goes unseen.** -/
theorem virtualMachine_settled_iff (h : ctx.Identified) (h' : ctx'.Identified)
    (hnamespace : ctx.namespaceName = ctx'.namespaceName) (hname : ctx.name = ctx'.name)
    (hsettled : (ctx.virtualMachine defaults bundle?).needsUpdate
      (ctx'.virtualMachine defaults' bundle'?) = false) :
    (ctx.virtualMachine defaults bundle?).toJson.compact =
        (ctx'.virtualMachine defaults' bundle'?).toJson.compact ↔
      (ctx.virtualMachine defaults bundle?).KeepsEntries
        (ctx'.virtualMachine defaults' bundle'?) := by
  obtain ⟨hagrees, hmetadata⟩ := workloadMetadata_eq h h' hnamespace hname
    (Resource.metadata_of_settled hsettled)
  have hdrift : Drift.virtualMachine (ctx.virtualMachine defaults bundle?)
      (ctx'.virtualMachine defaults' bundle'?) = false := Resource.drift_of_settled hsettled
  obtain ⟨hsubset, hdropped⟩ := machineSpec_of_settled hdrift
  have hrequirements := Json.isSubset_path hsubset ["domain", "resources"]
  rw [machineSpec_resources, machineSpec_resources] at hrequirements
  have htemplate (ctx : NodeContext) (defaults : VmDefaults) (bundle? : Option ConfigBundle) :
      (ctx.machineTemplate defaults bundle?).IsRecord := .ofMembers _
  calc (ctx.virtualMachine defaults bundle?).toJson.compact =
        (ctx'.virtualMachine defaults' bundle'?).toJson.compact
    _ ↔ (ctx.machineTemplate defaults bundle?).kept =
        (ctx'.machineTemplate defaults' bundle'?).kept := by
      rw [virtualMachine, virtualMachine, ← hmetadata, Resource.compact_ofBody_eq_iff,
        Json.kept_eq_iff_of_differ (.ofMembers _) (.ofMembers _) "template" fun other hother => by
          simp [Json.get, hother]]
      simp [Json.get]
    _ ↔ (ctx.machineSpec defaults bundle?).kept = (ctx'.machineSpec defaults' bundle'?).kept := by
      rw [← machineTemplate_spec, ← machineTemplate_spec]
      refine Json.kept_eq_iff_of_differ (htemplate ctx defaults bundle?)
        (htemplate ctx' defaults' bundle'?) "spec" fun other hother => ?_
      simp [machineTemplate, Json.get, hother, machineLabels, hagrees.labels, hname]
    _ ↔ (MachineSize.ofNode ctx.node defaults).requirements.kept =
        (MachineSize.ofNode ctx'.node defaults').requirements.kept :=
      kept_machineSpec_iff hagrees hname hsubset
    _ ↔ (ctx.virtualMachine defaults bundle?).KeepsEntries
        (ctx'.virtualMachine defaults' bundle'?) := by
      rw [Resource.KeepsEntries, requirements_virtualMachine, requirements_virtualMachine]
      exact (IsRequirements.ofSize _).kept_eq_iff (IsRequirements.ofSize _) hrequirements hdropped

end NodeContext

end NetLab
