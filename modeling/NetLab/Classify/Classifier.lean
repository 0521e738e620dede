import NetLab.Classify.Tables
import NetLab.Kube.Labels
import NetLab.Node.Config
import NetLab.Text.Basic
import NetLab.Text.LowerCase

/-!
# Classifying nodes

Whether a node runs as a container or as a machine is decided by the first of these levels that
has an answer (`Classifier.levels`):

1. the environment entry of the node that asks for a workload type;
2. an override that an administrator has put on the node;
3. the longest image pattern that occurs in the image;
4. an indicator of machine images in the image, then one of container images;
5. the kind of the node, among machine kinds, then among container kinds;
6. a disk format in the image, then a registry at its beginning;
7. container.

A `Classification` is the answer together with the `Rule` that gave it, so that an explanation
always names the rule that decided.
-/

namespace NetLab

open Kube

/-- The rule that decided a classification. -/
inductive Rule where
  /-- The value of the environment entry, as it was written. -/
  | directive (value : String)
  | forcedOverride
  | imagePattern (pattern : String)
  | imageIndicator (indicator : String)
  | nodeKind (kind : String)
  | imageExtension (extension : String)
  | registry (start : String)
  | default
deriving DecidableEq, Repr

namespace Rule

/-- What a rule saw. -/
def text : Rule → String
  | directive value =>
    Labels.executionModeEntry ++ " environment variable set to " ++ value
  | forcedOverride => "administrator override for node"
  | imagePattern pattern => "image matches known pattern " ++ pattern
  | imageIndicator indicator => "image contains indicator " ++ indicator
  | nodeKind kind => "node kind " ++ kind
  | imageExtension extension => "image looks like a " ++ extension ++ " disk"
  | registry start => "image is served from " ++ start
  | default => "no rule matched, using default"

end Rule

/-- A workload type and the rule that chose it. -/
structure Classification where
  workloadType : WorkloadType
  rule : Rule
deriving DecidableEq, Repr

namespace Classification

/-- The explanation of a classification. -/
def text (c : Classification) : String := c.workloadType.name ++ ": " ++ c.rule.text

end Classification

/-- The workload type that an environment entry asks for. -/
def directiveType? (value : String) : Option WorkloadType :=
  match Text.lower (Text.trim value) with
  | "vm" | "virtual-machine" => some .vm
  | "container" | "pod" => some .container
  | _ => none

/-- The order in which patterns are tried: the longer one first, in bytes, and of two of one
length the smaller one. -/
def patternLe (a b : String × WorkloadType) : Bool :=
  b.1.utf8ByteSize < a.1.utf8ByteSize ||
    (a.1.utf8ByteSize = b.1.utf8ByteSize && (compare a.1 b.1).isLE)

namespace ClassifierTables

/-- The image patterns in lower case, in the order in which they are tried.  Of two that differ in
case only, the one written smaller is tried first. -/
def patternOrder (tables : ClassifierTables) : List (String × WorkloadType) :=
  (tables.imagePatterns.entries.map fun (pattern, type) => (Text.lower pattern, type)).mergeSort
    patternLe

end ClassifierTables

/-- The tables and the overrides by which nodes are classified. -/
structure Classifier where
  tables : ClassifierTables
  overrides : SortedMap String WorkloadType
deriving DecidableEq

namespace Classifier

/-- A classifier without overrides. -/
def ofTables (tables : ClassifierTables) : Classifier := ⟨tables, ∅⟩

/-- Makes a node run as the given type, whatever an earlier override said. -/
def force (c : Classifier) (node : String) (type : WorkloadType) : Classifier :=
  { c with overrides := c.overrides.insert node type }

/-- Removes the override of a node. -/
def clear (c : Classifier) (node : String) : Classifier :=
  { c with overrides := c.overrides.erase node }

/-- The override of a node. -/
def overrideOf? (c : Classifier) (node : String) : Option WorkloadType := c.overrides.get? node

/-- The answer of each level in the order of precedence; `image` and `kind` are in lower case. -/
def levels (c : Classifier) (node : NodeConfig) (image kind : String) :
    List (Option Classification) :=
  let occurring (texts : List String) := texts.find? fun text => Text.occursIn text image
  let leading (texts : List String) := texts.find? fun text => Text.beginsWith text image
  [ (node.environment.get? Labels.executionModeEntry).bind fun value =>
      (directiveType? value).map fun type => ⟨type, .directive value⟩,
    (c.overrideOf? node.name).map fun type => ⟨type, .forcedOverride⟩,
    (c.tables.patternOrder.find? fun (pattern, _) => Text.occursIn pattern image).map
      fun (pattern, type) => ⟨type, .imagePattern pattern⟩,
    (occurring c.tables.vmImageIndicators).map fun text => ⟨.vm, .imageIndicator text⟩,
    (occurring c.tables.containerImageIndicators).map
      fun text => ⟨.container, .imageIndicator text⟩,
    if c.tables.vmKinds.contains kind then some ⟨.vm, .nodeKind kind⟩ else none,
    if c.tables.containerKinds.contains kind then some ⟨.container, .nodeKind kind⟩ else none,
    (occurring c.tables.vmImageExtensions).map fun text => ⟨.vm, .imageExtension text⟩,
    (leading c.tables.vmRegistries).map fun text => ⟨.vm, .registry text⟩,
    (leading c.tables.containerRegistries).map fun text => ⟨.container, .registry text⟩ ]

/-- The answer of the first level that has one, else container. -/
def classify (c : Classifier) (node : NodeConfig) : Classification :=
  ((c.levels node (Text.lower node.image) (Text.lower node.kind)).findSome? id).getD
    ⟨.container, .default⟩

end Classifier

end NetLab
