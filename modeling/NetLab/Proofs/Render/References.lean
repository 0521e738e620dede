import NetLab.Proofs.Drift.Workloads
import NetLab.Proofs.Policy.Links
import NetLab.Proofs.Reconcile.Refusals
import NetLab.Proofs.Render.Keys
import NetLab.Proofs.Render.Mounts

/-!
# What rendered objects refer to

The objects of a node name each other: the workload has the ConfigMap as a volume and mounts its
keys, the Deployment and the Service select the pods, and each object depends on others.  The names
on the two sides of such a reference are put together in different places.  All of them meet
(`Topology.references_of_render`): whatever is read off the manifests of a rendered node leads to
another object of the same node, and to nothing of another node.
-/

namespace NetLab

open Kube Cluster

/-! ## Reading manifests -/

namespace Kube.Resource

/-- The pod that a workload runs. -/
def pod (r : Resource) : Json := (r.get "spec").path ["template", "spec"]

/-- The containers of the pod.  A machine has none. -/
def containers (r : Resource) : List Json := (r.pod.get "containers").items

/-- What a container of the pod finds at one of its mounts, and where.  The mount names a volume of
the pod, the volume a ConfigMap, and the sub-path one of the texts in it. -/
def found? (r : Resource) (config? : Option Resource) (mount : Json) : Option (String × String) := do
  let path ← (mount.get "mountPath").asString?
  let key ← (mount.get "subPath").asString?
  let volume ← (r.pod.get "volumes").items.find? fun volume => volume.get "name" = mount.get "name"
  let name ← (volume.path ["configMap", "name"]).asString?
  let config ← config?.filter fun config => config.name = name
  let content ← ((config.get "data").get key).asString?
  return (path, content)

/-- A pod of the workload may have these labels: those of the template, and whatever the cluster
adds. -/
def GivesLabels (r : Resource) (labels : StringMap) : Prop :=
  ∀ name value, r.podLabels.get? name = some (.string value) → labels.get? name = some value

/-- A Service is in front of the pods that carry all labels of its selector.  Without a selector it
is in front of none. -/
def fronts (service : Resource) (labels : StringMap) : Bool :=
  let selector := ((service.get "spec").get "selector").members
  !selector.isEmpty && selector.all fun (name, value) =>
    (labels.get? name).map Json.string = some value

end Kube.Resource

namespace Container

/-- The mounts of a container. -/
def mounts (container : Json) : List Json := (container.get "volumeMounts").items

/-- The names and values of a container's environment. -/
def environment (container : Json) : List (Json × Json) :=
  (container.get "env").items.map fun entry => (entry.get "name", entry.get "value")

end Container

/-- What a node ships and where it is to be found: the startup configuration, then the files. -/
def NodeConfig.shipped (node : NodeConfig) : List (String × String) :=
  (node.startupConfig.map fun content => (ConfigEntry.startupPath, content)).toList ++
    node.files.entries.map fun (path, content) => (ConfigEntry.mountOfPath path, content)

/-! ## Bundles -/

namespace ConfigBundle

/-- Sources without a collision have keys of their own. -/
theorem nodup_of_firstCollision? {seen sources : List (String × ConfigEntry)}
    (h : firstCollision? seen sources = none) (hseen : (seen.map fun s => s.2.key).Nodup) :
    ((seen ++ sources).map fun s => s.2.key).Nodup := by
  induction sources generalizing seen with
  | nil => rwa [List.append_nil]
  | cons head rest ih =>
    obtain ⟨origin, entry⟩ := head
    unfold firstCollision? at h
    split at h
    · cases h
    · rename_i hfresh
      have hnew : ∀ earlier ∈ seen, earlier.2.key ≠ entry.key := fun earlier hmem => by
        simpa using List.find?_eq_none.1 hfresh earlier hmem
      have hextended : ((seen ++ [(origin, entry)]).map fun s => s.2.key).Nodup := by
        rw [List.map_append, List.nodup_append]
        refine ⟨hseen, List.nodup_singleton _, fun key hkey other hother => ?_⟩
        obtain ⟨earlier, hmem, rfl⟩ := List.mem_map.1 hkey
        obtain rfl := List.mem_singleton.1 hother
        exact hnew earlier hmem
      simpa using ih h hextended

theorem shipped_eq (node : NodeConfig) :
    node.shipped = (sources node).map fun s => (s.2.mountPath, s.2.content) := by
  simp [NodeConfig.shipped, sources, ConfigEntry.ofStartup, ConfigEntry.ofFile]
  cases node.startupConfig <;> rfl

/-- **A bundle has what the node ships**, under keys of its own; a node without one ships
nothing. -/
theorem entries_of_ofNode {node : NodeConfig} {name : String} {bundle? : Option ConfigBundle}
    (h : ofNode node name = .ok bundle?) :
    (match bundle? with
      | none => node.shipped = []
      | some bundle => bundle.name = name ∧
          node.shipped = bundle.entries.map (fun entry => (entry.mountPath, entry.content)) ∧
          (bundle.entries.map ConfigEntry.key).Nodup) := by
  unfold ofNode at h
  split at h
  · split at h
    · cases h
    · rename_i hfree
      obtain rfl := Except.ok.inj h
      have hkeys : ((sources node).map fun s => s.2.key).Nodup :=
        @nodup_of_firstCollision? [] (sources node) hfree List.nodup_nil
      refine ⟨rfl, by rw [shipped_eq, List.map_map]; rfl, ?_⟩
      rw [List.map_map]
      exact hkeys
  · rename_i hempty
    obtain rfl := Except.ok.inj h
    obtain ⟨hstartup, hfiles⟩ : node.startupConfig = none ∧ node.files.isEmpty = true := by
      simpa [NodeConfig.hasContent] using hempty
    simp only [SortedMap.isEmpty, List.isEmpty_iff] at hfiles
    simp [NodeConfig.shipped, hstartup, hfiles]

/-- What a bundle has under the key of one of its entries. -/
theorem get?_data {bundle : ConfigBundle} (hnodup : (bundle.entries.map ConfigEntry.key).Nodup)
    {entry : ConfigEntry} (hmem : entry ∈ bundle.entries) :
    bundle.data.get? entry.key = some entry.content := by
  refine SortedMap.get?_ofList_of_mem ?_ (List.mem_map_of_mem hmem)
  rwa [List.map_map]

end ConfigBundle

/-! ## One node -/

namespace NodeContext

variable (ctx : NodeContext) (defaults : VmDefaults) (bundle? : Option ConfigBundle)

/-- The ConfigMap of the node, if it ships contents. -/
def config? (bundle? : Option ConfigBundle) : Option Resource :=
  bundle?.map fun bundle => configMap (ctx.metadata bundle.name) bundle

theorem pod_deployment : (ctx.deployment bundle?).pod = ctx.podSpec bundle? :=
  ctx.path_deployment bundle? []

theorem pod_virtualMachine :
    (ctx.virtualMachine defaults bundle?).pod = ctx.machineSpec defaults bundle? :=
  ctx.path_virtualMachine defaults bundle? []

theorem containers_deployment :
    (ctx.deployment bundle?).containers = [ctx.container bundle?] := by
  rw [Resource.containers, pod_deployment, podSpec_containers]
  rfl

theorem containers_virtualMachine : (ctx.virtualMachine defaults bundle?).containers = [] := by
  have hnone : (ctx.machineSpec defaults bundle?).get "containers" = .null := by
    simp [machineSpec, Json.get]
  rw [Resource.containers, pod_virtualMachine, hnone]
  rfl

/-- A container of the node is that of its Deployment. -/
theorem mem_containers_workload {container : Json}
    (h : container ∈ (ctx.workload defaults bundle?).containers) :
    ctx.workload defaults bundle? = ctx.deployment bundle? ∧
      container = ctx.container bundle? := by
  unfold workload at h ⊢
  split at h
  · rw [containers_deployment] at h
    exact ⟨rfl, List.mem_singleton.1 h⟩
  · rw [containers_virtualMachine] at h
    cases h

/-! ### Contents -/

/-- The mount of an entry leads to its content, as the entry has a key of its own. -/
theorem found?_mount {bundle : ConfigBundle}
    (hnodup : (bundle.entries.map ConfigEntry.key).Nodup) {entry : ConfigEntry}
    (hmem : entry ∈ bundle.entries) :
    (ctx.deployment (some bundle)).found? (ctx.config? (some bundle)) (ConfigBundle.mount entry) =
      some (entry.mountPath, entry.content) := by
  have hvolumes : ((ctx.podSpec (some bundle)).get "volumes").items = [bundle.volume] := by
    rw [podSpec_volumes]
    rfl
  have hvolume : bundle.volume.path ["configMap", "name"] = .string bundle.name := by
    simp [ConfigBundle.volume, Json.path, Json.get]
  have hname : (bundle.volume.get "name" = (ConfigBundle.mount entry).get "name") := by
    simp [ConfigBundle.volume, ConfigBundle.mount, Json.get]
  have hpath : (ConfigBundle.mount entry).get "mountPath" = .string entry.mountPath := by
    simp [ConfigBundle.mount, Json.get]
  have hkey : (ConfigBundle.mount entry).get "subPath" = .string entry.key := by
    simp [ConfigBundle.mount, Json.get]
  have hconfig : (configMap (ctx.metadata bundle.name) bundle).name = bundle.name := rfl
  have hdata : (configMap (ctx.metadata bundle.name) bundle).get "data" =
      .ofStringMap bundle.data := by
    simp [configMap, Json.get]
  have hcontent : (Json.ofStringMap bundle.data).get entry.key = .string entry.content := by
    rw [Json.get, Json.get?_ofStringMap, ConfigBundle.get?_data hnodup hmem]
    rfl
  simp [Resource.found?, config?, Option.filter_some, pod_deployment, hvolumes, hvolume, hname, hpath, hkey,
    hconfig, hdata, hcontent]

/-- **A container finds what the node ships**, each content at its place, and nothing else. -/
theorem found?_mounts {name : String} (hbundle : ConfigBundle.ofNode ctx.node name = .ok bundle?)
    {container : Json} (h : container ∈ (ctx.workload defaults bundle?).containers) :
    (Container.mounts container).map ((ctx.workload defaults bundle?).found? (ctx.config? bundle?)) =
      ctx.node.shipped.map some := by
  obtain ⟨hworkload, rfl⟩ := ctx.mem_containers_workload defaults bundle? h
  have hentries := ConfigBundle.entries_of_ofNode hbundle
  rw [hworkload, Container.mounts, container_volumeMounts]
  cases bundle? with
  | none =>
    rw [hentries]
    rfl
  | some bundle =>
    obtain ⟨-, hshipped, hnodup⟩ := hentries
    have hmounts : (Json.array bundle.volumeMounts).items =
        bundle.entries.map ConfigBundle.mount := rfl
    rw [Option.map_some, Option.getD_some, hmounts, hshipped, List.map_map, List.map_map]
    exact List.map_congr_left fun entry hmem => ctx.found?_mount hnodup hmem

/-! ### Pods -/

/-- The labels of the node's pods, as far as others select by them. -/
theorem labels_of_givesLabels {labels : StringMap} (hctx : ctx.Identified)
    (h : (ctx.workload defaults bundle?).GivesLabels labels) :
    labels.get? Labels.topology = some ctx.topology ∧
      labels.get? Labels.node = some ctx.node.name := by
  have hgives {name value : String} (hne : name ≠ Labels.virtualMachine)
      (hlabel : ctx.labels.get? name = some value) : labels.get? name = some value := by
    refine h name value ?_
    rw [podLabels_workload, Json.get?_ofStringMap, get?_podLabels _ hne, hlabel]
    rfl
  exact ⟨hgives (by decide) (ctx.label?_topology.trans hctx.topology),
    hgives (by decide) (ctx.label?_node.trans hctx.node)⟩

/-- The Service of a node is in front of whatever carries its selector. -/
theorem fronts_service {labels : StringMap} :
    ctx.service.fronts labels = true ↔
      labels.get? Labels.topology = some ctx.topology ∧
        labels.get? Labels.node = some ctx.node.name := by
  have hmembers : ((ctx.service.get "spec").get "selector").members =
      ctx.selector.entries.map fun entry => (entry.1, .string entry.2) := by
    have hselector : (ctx.service.get "spec").get "selector" = .ofStringMap ctx.selector := by
      simp [service, Json.get]
    rw [hselector]
    rfl
  have hnode : ctx.selector.get? Labels.node = some ctx.node.name := by
    simp [selector, Labels.selector]
  have hsome : ctx.selector.entries ≠ [] :=
    List.ne_nil_of_mem (SortedMap.get?_eq_some_iff.1 hnode)
  rw [← Policy.carries_selector]
  simp only [Resource.fronts, hmembers, List.isEmpty_map, List.all_map, Function.comp_def,
    Bool.and_eq_true, Bool.not_eq_true', List.isEmpty_eq_false_iff, hsome, ne_eq,
    not_false_eq_true, true_and]
  simp [Policy.Carries, SortedMap.get?_eq_some_iff, selector]

/-- The Deployment of a node selects whatever carries its selector. -/
theorem selects_deployment {labels : StringMap} :
    Policy.selects (((ctx.deployment bundle?).get "spec").get "selector") labels = true ↔
      labels.get? Labels.topology = some ctx.topology ∧
        labels.get? Labels.node = some ctx.node.name := by
  have hselector : ((ctx.deployment bundle?).get "spec").get "selector" =
      matchLabels ctx.selector := by
    simp [deployment, matchLabels, Json.get]
  rw [hselector, Policy.selects_matchLabels]
  exact Policy.carries_selector

/-! ### Environments -/

/-- The environment of the container. -/
theorem environment_container :
    Container.environment (ctx.container bundle?) =
      (("NODE_NAME", ctx.node.name) :: ("TOPOLOGY_NAME", ctx.topology) ::
        ctx.node.environment.entries.filter fun entry => !reservedEnv.contains entry.1).map
          fun entry => (Json.string entry.1, Json.string entry.2) := by
  have henv : ((ctx.container bundle?).get "env").items = ctx.env := by
    simp [container, Json.get, Json.items, Json.asArray?]
  have hentry (name value : String) : ((envEntry name value).get "name",
      (envEntry name value).get "value") = (Json.string name, Json.string value) := by
    simp [envEntry, Json.get]
  rw [Container.environment, henv, env]
  simp [hentry]

/-- **No name is in the environment twice**: the operator's own names are kept out of the node's. -/
theorem nodup_environment :
    ((Container.environment (ctx.container bundle?)).map Prod.fst).Nodup := by
  have hfree (name : String) (hreserved : name ∈ reservedEnv) : name ∉
      (ctx.node.environment.entries.filter fun entry => !reservedEnv.contains entry.1).map
        Prod.fst := by
    intro hmem
    obtain ⟨entry, hentry, rfl⟩ := List.mem_map.1 hmem
    simp [hreserved] at hentry
  have hnames : ((("NODE_NAME", ctx.node.name) :: ("TOPOLOGY_NAME", ctx.topology) ::
      ctx.node.environment.entries.filter fun entry => !reservedEnv.contains entry.1).map
        Prod.fst).Nodup := by
    refine List.nodup_cons.2 ⟨?_, List.nodup_cons.2 ⟨hfree _ (by simp [reservedEnv]), ?_⟩⟩
    · intro hmem
      rcases List.mem_cons.1 hmem with heq | hmem
      · simp at heq
      · exact hfree _ (by simp [reservedEnv]) hmem
    · exact ctx.node.environment.nodup_keys.sublist (List.filter_sublist.map Prod.fst)
  rw [environment_container, List.map_map]
  have hinjective : Function.Injective Json.string := fun _ _ => Json.string.inj
  simpa [Function.comp_def] using hnames.map hinjective

end NodeContext

/-! ## All nodes -/

/-- **What the objects of a rendered node refer to**: each other. -/
structure RenderedNode.Refers (topology name : String) (node : RenderedNode)
    (config? : Option Resource) (workload service : Resource) : Prop where
  objects : node.objects.map PlannedObject.object = config?.toList ++ [workload, service]
  config_kind : ∀ config, config? = some config → config.kind = .configMap
  workload_kind : workload.kind = node.classification.workloadType.kind
  service_kind : service.kind = .service
  /-- The workload has the ConfigMap as a volume, if there is one. -/
  volumes : workload.mounts = (config?.map Resource.name).toList
  /-- A Deployment runs one container. -/
  container : workload.kind = .deployment → ∃ container, workload.containers = [container]
  /-- Each mount leads to a content, and all of them together to what the node ships. -/
  contents : ∀ container ∈ workload.containers,
    (Container.mounts container).map (workload.found? config?) = node.config.shipped.map some
  selected : workload.kind = .deployment → ∀ labels, workload.GivesLabels labels →
    Policy.selects ((workload.get "spec").get "selector") labels = true
  fronted : ∀ labels, workload.GivesLabels labels → service.fronts labels = true
  environment : ∀ container ∈ workload.containers,
    ((Container.environment container).map Prod.fst).Nodup ∧
      (.string "NODE_NAME", .string name) ∈ Container.environment container ∧
      (.string "TOPOLOGY_NAME", .string topology) ∈ Container.environment container
  dependencies : ∀ before planned after, node.objects = before ++ planned :: after →
    ∀ key ∈ planned.dependencies, key ∈ before.map PlannedObject.key
  kinds : ∀ planned ∈ node.objects, planned.object.kind ∈ Kind.workloads
  order : PlannedObject.applyOrder? node.objects = some node.objects

namespace NodeContext

variable (ctx : NodeContext) (defaults : VmDefaults) (bundle? : Option ConfigBundle)

/-- An object that depends on others comes after them. -/
theorem mem_before_of_objects {before after : List PlannedObject} {planned : PlannedObject}
    (hsplit : ctx.objects defaults bundle? = before ++ planned :: after) {key : Key}
    (hkey : key ∈ planned.dependencies) : key ∈ before.map PlannedObject.key := by
  have hmem : planned ∈ ctx.objects defaults bundle? :=
    hsplit ▸ List.mem_append_right _ List.mem_cons_self
  have hgroup := ctx.closed_objects defaults bundle? planned hmem key hkey
  have horder := ctx.inOrder_objects defaults bundle?
  rw [hsplit] at hgroup horder
  rcases horder.mem_before hkey hgroup with hplaced | ⟨earlier, hearlier, rfl⟩
  · cases hplaced
  · exact List.mem_map_of_mem hearlier

/-- The objects of a node in its context refer to each other. -/
theorem refers {name : String} (hctx : ctx.Identified)
    (hbundle : ConfigBundle.ofNode ctx.node name = .ok bundle?) :
    RenderedNode.Refers ctx.topology ctx.node.name
      ⟨ctx.node, ctx.classification, ctx.objects defaults bundle?⟩ (ctx.config? bundle?)
      (ctx.workload defaults bundle?) ctx.service where
  objects := by cases bundle? <;> rfl
  config_kind config hconfig := by
    obtain ⟨bundle, -, rfl⟩ := Option.map_eq_some_iff.1 hconfig
    rfl
  workload_kind := ctx.workload_kind defaults bundle?
  service_kind := rfl
  volumes := by
    rw [mounts_workload]
    cases bundle? <;> rfl
  container hkind := by
    unfold workload at hkind ⊢
    split at hkind
    · exact ⟨_, ctx.containers_deployment bundle?⟩
    · cases hkind
  contents _ := ctx.found?_mounts defaults bundle? hbundle
  selected hkind labels hlabels := by
    have hselector := ctx.labels_of_givesLabels defaults bundle? hctx hlabels
    unfold workload at hkind ⊢
    split at hkind
    · exact (ctx.selects_deployment bundle?).2 hselector
    · cases hkind
  fronted labels hlabels :=
    ctx.fronts_service.2 (ctx.labels_of_givesLabels defaults bundle? hctx hlabels)
  environment container hmem := by
    obtain ⟨-, rfl⟩ := ctx.mem_containers_workload defaults bundle? hmem
    refine ⟨ctx.nodup_environment bundle?, ?_, ?_⟩ <;> rw [environment_container]
    · exact List.mem_cons_self
    · exact List.mem_cons_of_mem _ List.mem_cons_self
  dependencies _ _ _ hsplit _ := ctx.mem_before_of_objects defaults bundle? hsplit
  kinds _ := ctx.kind_mem_workloads defaults bundle?
  order := PlannedObject.applyOrder?_eq_self (ctx.inOrder_objects defaults bundle?)

end NodeContext

namespace Topology

variable {t : Topology} {c : Classifier} {namespaceName : String}
  {rendered : SortedMap String RenderedNode}

/-- The pods of a rendered node carry its name. -/
theorem label_node_of_givesLabels (h : t.render c namespaceName = .ok rendered)
    {entry : String × RenderedNode} (hmem : entry ∈ rendered.entries) {planned : PlannedObject}
    (hplanned : planned ∈ entry.2.objects) (hruns : planned.object.runsNode = true)
    {labels : StringMap} (hlabels : planned.object.GivesLabels labels) :
    labels.get? Labels.node = some entry.1 := by
  obtain ⟨definition, bundle?, -, -, hrendered⟩ := isRendered_of_render h entry hmem
  have hctx := t.identified_context c namespaceName entry.1 definition
  have hname := t.nodeConfig_name entry.1 definition
  rw [hrendered] at hplanned
  rw [NodeContext.eq_workload_of_runsNode _ _ _ hplanned hruns] at hlabels
  rw [(NodeContext.labels_of_givesLabels _ _ _ hctx hlabels).2]
  exact congrArg some hname

/-- **Whatever the objects of a rendered node refer to is there, and is the node's own.**  The
Service is in front of the pods of no other node, and no pass refuses the node, whatever else is
planned in it. -/
theorem references_of_render (h : t.render c namespaceName = .ok rendered) :
    ∀ entry ∈ rendered.entries, ∃ config? workload service,
      entry.2.Refers t.name entry.1 config? workload service ∧
      (∀ other ∈ rendered.entries, other.1 ≠ entry.1 → ∀ planned ∈ other.2.objects,
        planned.object.runsNode = true → ∀ labels, planned.object.GivesLabels labels →
          service.fronts labels = false) ∧
      ∀ plans : SortedMap String NodePlan, (entry.1, entry.2.plan) ∈ plans.entries →
        ∀ topology target done report,
          (reconcileWorkloads topology target plans).Yields done (.ok report) →
            ResourceError.dependencyCycle entry.1 ∉ report.errors ∧
              ∀ kind, ResourceError.unsupportedKind entry.1 kind ∉ report.errors := by
  intro entry hmem
  obtain ⟨definition, bundle?, -, hbundle, hrendered⟩ := isRendered_of_render h entry hmem
  have hctx := t.identified_context c namespaceName entry.1 definition
  have hname : (t.context c namespaceName entry.1 definition).node.name = entry.1 :=
    t.nodeConfig_name entry.1 definition
  have hrefers := NodeContext.refers _ t.native.vmDefaults bundle? hctx hbundle
  rw [hname, ← hrendered] at hrefers
  refine ⟨_, _, _, hrefers, ?_, ?_⟩
  · intro other hother hne planned hplanned hruns labels hlabels
    have hlabel := label_node_of_givesLabels h hother hplanned hruns hlabels
    rw [← Bool.not_eq_true, NodeContext.fronts_service, hlabel, hname]
    exact fun hboth => hne (Option.some.inj hboth.2)
  · intro plans hplan topology target done report hyields
    exact reconcileWorkloads_not_refused hplan hrefers.kinds hrefers.order hyields

/-! A container and a machine that ship contents. -/

/-- The machine `fw` ships a startup configuration, the container `r1` a file as well. -/
def mixedNodes : Topology :=
  { ((Topology.ofName "lab").withNode "fw" shipper).withNode "r1"
      { shipper with files := .ofList [("motd", "welcome")] } with
    native := { (default : NativeExecution) with
      nodeOverrides := .ofList [("fw", { (default : NodeOverride) with executionMode := .vm })] } }

theorem mixedNodes_refer : ∃ rendered, mixedNodes.render .bare "sim" = .ok rendered ∧
    (rendered.entries.map fun entry =>
        (entry.1, entry.2.classification.workloadType, entry.2.config.shipped)) =
      [("fw", .vm, [("/etc/networksim/startup-config", "hostname r1")]),
        ("r1", .container, [("/etc/networksim/startup-config", "hostname r1"),
          ("/etc/networksim/files/motd", "welcome")])] ∧
    ∀ entry ∈ rendered.entries, ∃ config? workload service,
      entry.2.Refers "lab" entry.1 config? workload service := by
  obtain ⟨rendered, hrender, hentries⟩ := @exists_ok_of_any _ _
    (mixedNodes.render .bare "sim") (fun rendered => decide ((rendered.entries.map fun entry =>
        (entry.1, entry.2.classification.workloadType, entry.2.config.shipped)) =
      [("fw", .vm, [("/etc/networksim/startup-config", "hostname r1")]),
        ("r1", .container, [("/etc/networksim/startup-config", "hostname r1"),
          ("/etc/networksim/files/motd", "welcome")])])) (by decide +kernel)
  refine ⟨rendered, hrender, of_decide_eq_true hentries, fun entry hmem => ?_⟩
  obtain ⟨config?, workload, service, hrefers, -⟩ := references_of_render hrender entry hmem
  exact ⟨config?, workload, service, hrefers⟩

end Topology

end NetLab
