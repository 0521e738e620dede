import NetLab.Topology.Endpoint
import NetLab.Topology.Format

/-!
# Node configurations

A `NodeConfig` is everything that rendering needs to know about one node.  It is put together from
a topology by `NetLab.Node.Assembly` and also has a written form of its own.
-/

namespace NetLab

/-- An interface of a node and the other end of its link. -/
structure Interface where
  name : String
  peer : Endpoint
deriving DecidableEq, Inhabited

/-- The configuration of one node. -/
structure NodeConfig where
  name : String
  image : String
  kind : String
  labels : StringMap
  annotations : StringMap
  environment : StringMap
  /-- The interfaces in the order of the links they belong to. -/
  interfaces : List Interface
  resources : Option ResourceSpec
  startupConfig : Option String
  /-- Contents by path. -/
  files : StringMap
deriving DecidableEq, Inhabited

open Document

namespace Endpoint

variable {δ : Type} [Document δ]

def toJson (endpoint : Endpoint) : Json :=
  .ofMembers [("node", .string endpoint.node), ("interface", .string endpoint.interface)]

def ofDocument? (value : δ) : Option Endpoint := do
  let entries ← entries? value
  return { node := ← field? entries "node" text?, interface := ← field? entries "interface" text? }

end Endpoint

namespace Interface

variable {δ : Type} [Document δ]

def toJson (interface : Interface) : Json :=
  .ofMembers [("name", .string interface.name), ("peer", interface.peer.toJson)]

def ofDocument? (value : δ) : Option Interface := do
  let entries ← entries? value
  return { name := ← field? entries "name" text?,
           peer := ← field? entries "peer" Endpoint.ofDocument? }

end Interface

namespace NodeConfig

variable {δ : Type} [Document δ]

/-- A node of a kind that runs an image, and nothing more. -/
def ofImage (name kind image : String) : NodeConfig :=
  { (default : NodeConfig) with name, kind, image }

/-- The node has contents to ship. -/
def hasContent (node : NodeConfig) : Bool := node.startupConfig.isSome || !node.files.isEmpty

def toJson (node : NodeConfig) : Json :=
  .ofMembers [
    ("name", .string node.name),
    ("image", .string node.image),
    ("kind", .string node.kind),
    ("labels", .ofStringMap node.labels),
    ("annotations", .ofStringMap node.annotations),
    ("environment", .ofStringMap node.environment),
    ("interfaces", .array (node.interfaces.map Interface.toJson)),
    ("resources", (node.resources.map ResourceSpec.toJson).getD .null),
    ("startup_config", .text? node.startupConfig),
    ("files", .ofStringMap node.files)]

def ofDocument? (value : δ) : Option NodeConfig := do
  let entries ← entries? value
  return {
    name := ← field? entries "name" text?
    image := ← field? entries "image" text?
    kind := ← field? entries "kind" text?
    labels := ← orDefault? entries "labels" texts? ∅
    annotations := ← orDefault? entries "annotations" texts? ∅
    environment := ← orDefault? entries "environment" texts? ∅
    interfaces := ← orDefault? entries "interfaces" (list? Interface.ofDocument?) []
    resources := ← optional? entries "resources" ResourceSpec.ofDocument?
    startupConfig := ← optional? entries "startup_config" text?
    files := ← orDefault? entries "files" texts? ∅ }

end NodeConfig

end NetLab
