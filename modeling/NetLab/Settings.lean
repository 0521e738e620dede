import NetLab.Classify.Classifier
import NetLab.Document
import NetLab.Text.Basic

/-!
# Settings

The settings of the operator.  They are read from a document, in which each may be missing, or from
the environment (`Settings.load`), where one bad entry makes all of them the defaults.
-/

namespace NetLab

/-- The settings of the operator. -/
structure Settings where
  port : Nat
  namespaceName : String
  topologyPath : String
  reconcileIntervalSecs : Nat
  /-- The names, separated by commas, of nodes that run as machines. -/
  forceVmNodes : String
  /-- The names, separated by commas, of nodes that run as containers. -/
  forceContainerNodes : String
  logFormat : String
deriving DecidableEq

namespace Settings

open Document

/-- The settings where nothing is set. -/
def defaults : Settings where
  port := 8080
  namespaceName := "networksim-sim"
  topologyPath := "topology.yaml"
  reconcileIntervalSecs := 30
  forceVmNodes := ""
  forceContainerNodes := ""
  logFormat := "text"

/-- The largest port. -/
def maxPort : Nat := 65535

/-- The largest number of seconds. -/
def maxSeconds : Nat := 18446744073709551615

/-- The settings of a document that has numbers as `number?` reads them. -/
def ofEntries? {δ : Type} [Document δ] (number? : Nat → δ → Option Nat)
    (entries : List (String × δ)) : Option Settings := do
  return {
    port := ← orDefault? entries "port" (number? maxPort) defaults.port
    namespaceName := ← orDefault? entries "namespace" text? defaults.namespaceName
    topologyPath := ← orDefault? entries "topology_path" text? defaults.topologyPath
    reconcileIntervalSecs :=
      ← orDefault? entries "reconcile_interval_secs" (number? maxSeconds)
        defaults.reconcileIntervalSecs
    forceVmNodes := ← orDefault? entries "force_vm_nodes" text? defaults.forceVmNodes
    forceContainerNodes :=
      ← orDefault? entries "force_container_nodes" text? defaults.forceContainerNodes
    logFormat := ← orDefault? entries "log_format" text? defaults.logFormat }

/-- A number of a JSON document. -/
def jsonNumber? (max : Nat) (value : Json) : Option Nat :=
  (value.asIntIn? 0 max).map Int.toNat

def ofJson? (value : Json) : Option Settings := do
  ofEntries? jsonNumber? (← value.asObject?)

/-- A number of the environment: decimal digits after an optional plus sign, or a word for one
or zero. -/
def envNumber? (max : Nat) (value : Json) : Option Nat := do
  let text ← value.asString?
  let number ← match Text.lower text with
    | "true" | "on" | "yes" => some 1
    | "false" | "off" | "no" => some 0
    | _ =>
      let digits := match text.toList with
        | '+' :: digits => digits
        | digits => digits
      Text.valueOf? 10 digits
  if number ≤ max then some number else none

/-- The beginning of the names of environment entries that are settings, in lower case. -/
def envStart : String := "networksim_"

/-- The settings among the entries of an environment, by their names in lower case. -/
def envEntries (environment : StringMap) : StringMap :=
  .ofList <| environment.entries.filterMap fun (name, value) =>
    let name := (Text.lower name).toList
    if envStart.toList.isPrefixOf name then
      some (String.ofList (name.drop envStart.length), value)
    else none

/-- The settings of an environment; the defaults if one of them cannot be read. -/
def load (environment : StringMap) : Settings :=
  (ofEntries? envNumber?
    ((envEntries environment).entries.map fun (name, value) =>
      (name, Json.string value))).getD defaults

/-- The seconds between two passes. -/
def interval (settings : Settings) : Nat := max settings.reconcileIntervalSecs 1

/-- The log is to be written as JSON. -/
def jsonLogs (settings : Settings) : Bool :=
  settings.logFormat.toList.map Char.toLower = "json".toList

/-- The names in a list separated by commas. -/
def nodeNames (text : String) : List String :=
  ((text.splitOn ",").map Text.trim).filter (· ≠ "")

/-- The classifier with the overrides of the settings.  A node that is listed twice runs as a
container. -/
def override (settings : Settings) (c : Classifier) : Classifier :=
  let c := (nodeNames settings.forceVmNodes).foldl (fun c node => c.force node .vm) c
  (nodeNames settings.forceContainerNodes).foldl (fun c node => c.force node .container) c

end Settings

end NetLab
