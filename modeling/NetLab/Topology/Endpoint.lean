import NetLab.Text.Encoding
import NetLab.Topology.Basic

/-!
# Endpoints and links

An endpoint is written `node:interface`; the first colon separates the two, so an interface may
itself hold colons.  A link is well formed if it has two endpoints that can be read.
`Topology.endpointPairs` are the well-formed links; `Topology.check` says what is wrong with the
links of a topology, a malformed one before anything else.
-/

namespace NetLab

/-- One end of a link. -/
structure Endpoint where
  node : String
  interface : String
deriving DecidableEq, Inhabited

/-- What can be wrong with the links of a topology. -/
inductive LinkError where
  /-- The text is not `node:interface`. -/
  | malformed (text : String)
  | unknownNode (node : String)
  | duplicateInterface (endpoint : Endpoint)
deriving DecidableEq

namespace LinkError

def message : LinkError → String
  | malformed text => "invalid link endpoint " ++ Text.quote text ++ ", expected node:interface"
  | unknownNode node => "link references unknown node " ++ Text.quote node
  | duplicateInterface endpoint =>
    "interface " ++ endpoint.interface ++ " on node " ++ endpoint.node
      ++ " is used by more than one link"

end LinkError

namespace Endpoint

/-- The endpoint that a text writes: both parts have to be there. -/
def ofText? (text : String) : Option Endpoint :=
  let node := text.toList.takeWhile (· ≠ ':')
  match text.toList.dropWhile (· ≠ ':') with
  | _ :: interface =>
    if node.isEmpty || interface.isEmpty then none
    else some ⟨String.ofList node, String.ofList interface⟩
  | [] => none

def text (endpoint : Endpoint) : String := endpoint.node ++ ":" ++ endpoint.interface

/-- The endpoint that a text writes, or what is wrong with it. -/
def ofText (text : String) : Except LinkError Endpoint :=
  match ofText? text with
  | some endpoint => .ok endpoint
  | none => .error (.malformed text)

end Endpoint

namespace Link

/-- Both endpoints of a well-formed link. -/
def pair? (link : Link) : Option (Endpoint × Endpoint) :=
  match link.endpoints with
  | [a, b] => do return (← Endpoint.ofText? a, ← Endpoint.ofText? b)
  | _ => none

/-- Both endpoints, or what is wrong with the link. -/
def pair (link : Link) : Except LinkError (Endpoint × Endpoint) :=
  match link.endpoints with
  | [a, b] => do return (← Endpoint.ofText a, ← Endpoint.ofText b)
  | endpoints => .error (.malformed (String.intercalate "," endpoints))

end Link

namespace Topology

/-- The names that stand for attachments to the host rather than for nodes. -/
def specialNodes : List String := ["host", "mgmt-net", "macvlan"]

/-- The well-formed links, in the order of declaration. -/
def endpointPairs (t : Topology) : List (Endpoint × Endpoint) := t.links.filterMap Link.pair?

/-- The endpoints of some links, in order. -/
def endpointsOf (pairs : List (Endpoint × Endpoint)) : List Endpoint :=
  pairs.flatMap fun (a, b) => [a, b]

/-- The first fault among endpoints, of which those in `used` came before: each belongs to a
declared or special node, and no two endpoints of a node are the same. -/
def checkEndpoints (t : Topology) (used : List Endpoint) : List Endpoint → Except LinkError Unit
  | [] => .ok ()
  | endpoint :: rest =>
    if specialNodes.contains endpoint.node then checkEndpoints t used rest
    else if !t.nodes.contains endpoint.node then .error (.unknownNode endpoint.node)
    else if used.contains endpoint then .error (.duplicateInterface endpoint)
    else checkEndpoints t (endpoint :: used) rest

/-- The first fault of the links: a malformed link anywhere, else the first endpoint at fault. -/
def check (t : Topology) : Except LinkError Unit := do
  let pairs ← t.links.mapM Link.pair
  checkEndpoints t [] (endpointsOf pairs)

end Topology

end NetLab
