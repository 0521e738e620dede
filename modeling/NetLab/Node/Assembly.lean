import NetLab.Kube.Labels
import NetLab.Node.Config

/-!
# Putting a node's configuration together

`Topology.nodeConfig` layers what a topology says about a node: its definition first, then the
settings of the whole topology, then the override of the node.  The labels that identify the node
come last, so that nothing a user writes can replace them.
-/

namespace NetLab

open Kube

namespace NodeConfig

/-- The mode as an environment entry and a label, unless it leaves the choice open. -/
def withMode (node : NodeConfig) (mode : ExecutionMode) : NodeConfig :=
  match mode with
  | .auto => node
  | mode =>
    { node with
      environment := node.environment.insert Labels.executionModeEntry mode.name
      labels := node.labels.insert Labels.executionMode mode.name }

/-- The network plugin as an environment entry and a label. -/
def withPlugin (node : NodeConfig) (cni : Option String) : NodeConfig :=
  match cni with
  | none => node
  | some cni =>
    { node with
      environment := node.environment.insert Labels.networkingModeEntry cni
      labels := node.labels.insert Labels.networkingMode cni }

/-- What the override of a node changes. -/
def withOverride (node : NodeConfig) (nodeOverride? : Option NodeOverride) : NodeConfig :=
  match nodeOverride? with
  | none => node
  | some nodeOverride =>
    let node := node.withMode nodeOverride.executionMode
    { node with
      resources := nodeOverride.resources <|> node.resources
      environment := node.environment.extend nodeOverride.config }

/-- The labels that identify a node; its kind is one of them if it has one. -/
def withIdentity (node : NodeConfig) (topologyName : String) : NodeConfig :=
  let labels := node.labels.extend (Labels.identity topologyName node.name)
  { node with
    labels := if node.kind = "" then labels else labels.insert Labels.nodeKind node.kind }

end NodeConfig

namespace Topology

/-- The interfaces of a node: one for each end of a well-formed link that names it. -/
def interfacesOf (t : Topology) (node : String) : List Interface :=
  t.endpointPairs.flatMap fun (a, b) =>
    (if a.node = node then [⟨a.interface, b⟩] else []) ++
      (if b.node = node then [⟨b.interface, a⟩] else [])

/-- The configuration of a node with the given definition. -/
def nodeConfig (t : Topology) (name : String) (definition : NodeDefinition) : NodeConfig :=
  let defined : NodeConfig :=
    { NodeConfig.ofImage name definition.kind definition.image with
      environment := definition.env
      labels := definition.labels
      startupConfig := definition.startupConfig
      files := definition.files }
  let settled := (defined.withMode t.native.executionMode).withPlugin t.native.cni
  let settled := { settled with resources := t.native.resources }
  let identified :=
    (settled.withOverride (t.native.nodeOverrides.get? name)).withIdentity t.name
  { identified with interfaces := t.interfacesOf name }

end Topology

end NetLab
