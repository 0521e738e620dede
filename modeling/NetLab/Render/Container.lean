import NetLab.Node.Bundle
import NetLab.Render.Context

/-!
# Nodes as containers

A node that runs as a container is a Deployment of one replica.  Its strategy is `Recreate`, so
that the old pod is gone before a new one starts: a node never runs twice.  Each node, however it
runs, has a Service in front of it.
-/

namespace NetLab

open Kube

namespace ResourceSpec

/-- A map of quantities; an empty one is left out. -/
def quantities (m : StringMap) : Option Json := if m.isEmpty then none else some (.ofStringMap m)

/-- The resources of a container. -/
def requirements (spec : ResourceSpec) : Json :=
  .ofOptional [("requests", quantities spec.requests), ("limits", quantities spec.limits)]

@[simp]
theorem canonical_requirements (spec : ResourceSpec) : spec.requirements.Canonical := by
  have hquantities (m : StringMap) (value : Json) (h : quantities m = some value) :
      value.Canonical := by
    unfold quantities at h
    split at h
    · cases h
    · exact Option.some.inj h ▸ .ofStringMap m
  exact .ofOptional (by simpa using ⟨hquantities spec.requests, hquantities spec.limits⟩)

end ResourceSpec

namespace NodeContext

/-- An environment entry of a container. -/
def envEntry (name value : String) : Json :=
  .ofMembers [("name", .string name), ("value", .string value)]

/-- The environment entries that belong to the operator. -/
def reservedEnv : List String := ["NODE_NAME", "TOPOLOGY_NAME"]

/-- The environment: the names of the node and the topology, then the entries of the node, which
cannot replace them. -/
def env (ctx : NodeContext) : List Json :=
  envEntry "NODE_NAME" ctx.node.name :: envEntry "TOPOLOGY_NAME" ctx.topology ::
    (ctx.node.environment.entries.filter fun (name, _) => !reservedEnv.contains name).map
      fun (name, value) => envEntry name value

theorem canonical_env (ctx : NodeContext) : ∀ item ∈ ctx.env, item.Canonical := by
  have hentry (name value : String) : (envEntry name value).Canonical := by simp [envEntry]
  intro item hitem
  simp only [env, List.mem_cons, List.mem_map] at hitem
  rcases hitem with rfl | rfl | ⟨entry, -, rfl⟩ <;> exact hentry _ _

/-- A management port of a container. -/
def containerPort (port : ManagementPort) : Json :=
  .ofMembers [
    ("name", .string port.name), ("containerPort", .nat port.number),
    ("protocol", .string "TCP")]

/-- The container that runs the node. -/
def container (ctx : NodeContext) (bundle? : Option ConfigBundle) : Json :=
  .ofOptional [
    ("name", some (.string "node")),
    ("image", some (.string ctx.node.image)),
    ("imagePullPolicy", some (.string "IfNotPresent")),
    ("env", some (.array ctx.env)),
    ("ports", some (.array (managementPorts.map containerPort))),
    ("resources", ctx.node.resources.map ResourceSpec.requirements),
    ("securityContext", some (.ofMembers [
      ("capabilities", .ofMembers [("add", .ofStrings ["NET_ADMIN"])])])),
    ("volumeMounts", bundle?.map fun bundle => .array bundle.volumeMounts)]

@[simp]
theorem canonical_container (ctx : NodeContext) (bundle? : Option ConfigBundle) :
    (ctx.container bundle?).Canonical := by
  refine .ofOptional ?_
  simpa [containerPort] using ⟨ctx.canonical_env, fun bundle _ => bundle.canonical_volumeMounts⟩

/-- The pod of the node. -/
def podSpec (ctx : NodeContext) (bundle? : Option ConfigBundle) : Json :=
  .ofOptional [
    ("hostname", some (.string ctx.hostname)),
    ("containers", some (.array [ctx.container bundle?])),
    ("volumes", bundle?.map fun bundle => .array [bundle.volume]),
    ("restartPolicy", some (.string "Always"))]

@[simp]
theorem canonical_podSpec (ctx : NodeContext) (bundle? : Option ConfigBundle) :
    (ctx.podSpec bundle?).Canonical := by
  simp [podSpec]

/-- The pod template of the node. -/
def podTemplate (ctx : NodeContext) (bundle? : Option ConfigBundle) : Json :=
  let annotations :=
    if ctx.node.annotations.isEmpty then none else some (Json.ofStringMap ctx.node.annotations)
  .ofMembers [
    ("metadata", .ofOptional [
      ("labels", some (.ofStringMap ctx.labels)), ("annotations", annotations)]),
    ("spec", ctx.podSpec bundle?)]

@[simp]
theorem canonical_podTemplate (ctx : NodeContext) (bundle? : Option ConfigBundle) :
    (ctx.podTemplate bundle?).Canonical := by
  simp [podTemplate]

/-- The Deployment that runs the node. -/
def deployment (ctx : NodeContext) (bundle? : Option ConfigBundle) : Resource :=
  .ofBody .deployment ctx.workloadMetadata [
    ("spec", .ofMembers [
      ("replicas", .nat 1),
      ("selector", .ofMembers [("matchLabels", .ofStringMap ctx.selector)]),
      ("strategy", .ofMembers [("type", .string "Recreate")]),
      ("template", ctx.podTemplate bundle?)])] (by simp)

/-- A management port of a Service. -/
def servicePort (port : ManagementPort) : Json :=
  .ofMembers [
    ("name", .string port.name), ("port", .nat port.number), ("targetPort", .nat port.number),
    ("protocol", .string "TCP")]

/-- The Service in front of the node. -/
def service (ctx : NodeContext) : Resource :=
  .ofBody .service (ctx.metadata ctx.name) [
    ("spec", .ofMembers [
      ("selector", .ofStringMap ctx.selector),
      ("ports", .array (managementPorts.map servicePort)),
      ("type", .string "ClusterIP")])] (by simp [servicePort])

/-- The ConfigMap of a bundle. -/
def configMap (metadata : Meta) (bundle : ConfigBundle) : Resource :=
  .ofBody .configMap metadata [("data", .ofStringMap bundle.data)] (by simp)

end NodeContext

end NetLab
