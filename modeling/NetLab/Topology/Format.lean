import NetLab.Document
import NetLab.Topology.Basic

/-!
# The written form of topologies

`toJson` writes every field, empty ones included; `ofDocument?` reads a JSON or YAML document by
the rules of `NetLab.Document`.  Only the name of a topology and the endpoints of a link are
required.
-/

namespace NetLab

open Document

variable {δ : Type} [Document δ]

namespace ExecutionMode

def ofDocument? (value : δ) : Option ExecutionMode := (word? value).bind ofName?

end ExecutionMode

namespace ResourceSpec

def toJson (spec : ResourceSpec) : Json :=
  .ofMembers [
    ("requests", .ofStringMap spec.requests),
    ("limits", .ofStringMap spec.limits)]

def ofDocument? (value : δ) : Option ResourceSpec := do
  let entries ← entries? value
  return {
    requests := ← orDefault? entries "requests" texts? ∅
    limits := ← orDefault? entries "limits" texts? ∅ }

end ResourceSpec

namespace NodeDefinition

def toJson (definition : NodeDefinition) : Json :=
  .ofMembers [
    ("kind", .string definition.kind),
    ("image", .string definition.image),
    ("env", .ofStringMap definition.env),
    ("labels", .ofStringMap definition.labels),
    ("startup-config", .text? definition.startupConfig),
    ("files", .ofStringMap definition.files)]

def ofDocument? (value : δ) : Option NodeDefinition := do
  let entries ← entries? value
  return {
    kind := ← orDefault? entries "kind" text? ""
    image := ← orDefault? entries "image" text? ""
    env := ← orDefault? entries "env" texts? ∅
    labels := ← orDefault? entries "labels" texts? ∅
    startupConfig := ← optional? entries "startup-config" text?
    files := ← orDefault? entries "files" texts? ∅ }

end NodeDefinition

namespace Link

def toJson (link : Link) : Json := .ofMembers [("endpoints", .ofStrings link.endpoints)]

def ofDocument? (value : δ) : Option Link := do
  let entries ← entries? value
  return { endpoints := ← field? entries "endpoints" (list? text?) }

end Link

namespace NodeOverride

def toJson (nodeOverride : NodeOverride) : Json :=
  .ofMembers [
    ("executionMode", .string nodeOverride.executionMode.name),
    ("resources", (nodeOverride.resources.map ResourceSpec.toJson).getD .null),
    ("config", .ofStringMap nodeOverride.config)]

def ofDocument? (value : δ) : Option NodeOverride := do
  let entries ← entries? value
  return {
    executionMode := ← orDefault? entries "executionMode" ExecutionMode.ofDocument? .auto
    resources := ← optional? entries "resources" ResourceSpec.ofDocument?
    config := ← orDefault? entries "config" texts? ∅ }

end NodeOverride

namespace VmDefaults

def toJson (defaults : VmDefaults) : Json :=
  .ofMembers [
    ("memory", .text? defaults.memory),
    ("cpu", .text? defaults.cpu),
    ("sshAuthorizedKeys", .ofStrings defaults.sshAuthorizedKeys)]

def ofDocument? (value : δ) : Option VmDefaults := do
  let entries ← entries? value
  return {
    memory := ← optional? entries "memory" text?
    cpu := ← optional? entries "cpu" text?
    sshAuthorizedKeys := ← orDefault? entries "sshAuthorizedKeys" (list? text?) [] }

end VmDefaults

namespace NativeExecution

def toJson (native : NativeExecution) : Json :=
  .ofMembers [
    ("executionMode", .string native.executionMode.name),
    ("networking", .ofMembers [("cni", .text? native.cni)]),
    ("resources", (native.resources.map ResourceSpec.toJson).getD .null),
    ("nodeOverrides", .ofMap native.nodeOverrides NodeOverride.toJson),
    ("vmDefaults", native.vmDefaults.toJson)]

/-- The plugin that a networking section names. -/
def cniOfDocument? (value : δ) : Option (Option String) := do
  let entries ← entries? value
  optional? entries "cni" text?

def ofDocument? (value : δ) : Option NativeExecution := do
  let entries ← entries? value
  return {
    executionMode := ← orDefault? entries "executionMode" ExecutionMode.ofDocument? .auto
    cni := ← orDefault? entries "networking" cniOfDocument? none
    resources := ← optional? entries "resources" ResourceSpec.ofDocument?
    nodeOverrides := ← orDefault? entries "nodeOverrides" (map? NodeOverride.ofDocument?) ∅
    vmDefaults := ← orDefault? entries "vmDefaults" VmDefaults.ofDocument? default }

end NativeExecution

namespace Topology

def toJson (t : Topology) : Json :=
  .ofMembers [
    ("name", .string t.name),
    ("spec", .ofMembers [
      ("nodes", .ofMap t.nodes NodeDefinition.toJson),
      ("links", .array (t.links.map Link.toJson)),
      ("nativeExecution", t.native.toJson)])]

/-- The nodes, links and settings of a topology of that name. -/
def specOfDocument? (name : String) (value : δ) : Option Topology := do
  let entries ← entries? value
  return {
    name
    nodes := ← orDefault? entries "nodes" (map? NodeDefinition.ofDocument?) ∅
    links := ← orDefault? entries "links" (list? Link.ofDocument?) []
    native := ← orDefault? entries "nativeExecution" NativeExecution.ofDocument? default }

def ofDocument? (value : δ) : Option Topology := do
  let entries ← entries? value
  let name ← field? entries "name" text?
  orDefault? entries "spec" (specOfDocument? name) (ofName name)

end Topology

end NetLab
