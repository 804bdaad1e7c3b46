import ProcessPlan.Config.Healthcheck
import ProcessPlan.Config.Ports
import ProcessPlan.Config.Process
import ProcessPlan.Kdl.Document

/-!
# Reading a configuration

A configuration is a KDL document whose nodes are the sections of an application. Every section is
read on its own and added to the application; of all sections only two processes can be in each
other's way, if they share a name.

## Main definitions

* `Config.readItem`, `Config.readItems`: a metadata item, and the items of a section
* `Config.Section`, `Config.readSection`: one section
* `Config.addSection`: what a section adds to an application
* `App.ofDocument`, `App.ofText`: the application of a document, and of a text
-/

namespace ProcessPlan

namespace Config

open Kdl (Node)

/-! ### Metadata items

An item node names its target and perhaps a process and a version as properties; its block lists the
entries, one node each. What the entries hold is not checked before an item is applied. -/

/-- The target of an item. -/
def readTarget (node : Node) : Read Target :=
  match node.propertyText? "target" with
  | none => .error .missingTarget
  | some name =>
    match Target.ofName? name with
    | some target => .ok target
    | none => .error (.unknownTarget name)

/-- The entry of a node: its name, and the text of its first argument or else the empty text. -/
def itemEntry (node : Node) : String × String :=
  (node.name, (argumentPlainText? node).getD "")

/-- An item. -/
def readItem (node : Node) : Read MetadataItem := do
  let target ← readTarget node
  let version ← optional (readCount "item version") (node.property? "version")
  return {
    target
    process := node.propertyText? "process"
    version
    entries := .ofList (node.childNodes.map itemEntry) }

/-- The items of a section. -/
def readItems (node : Node) : Read (List MetadataItem) :=
  (node.childNodes.filter (·.name = "item")).mapM readItem

/-! ### Sections -/

/-- One section of a configuration. -/
inductive Section where
  | app (name : String) (version : Option Version)
  | process (spec : ProcessSpec)
  | ports (declarations : List (String × List PortDeclaration))
  | exposedPorts (ports : List UInt16)
  | healthcheck (probes : Probes)
  | labels (items : List MetadataItem)
  | annotations (items : List MetadataItem)
  | unknown
deriving DecidableEq

/-- The name and the version of an application. -/
def readApp (node : Node) : Read Section := do
  let name ← readName "app" node
  let version ← optional (readCount "app version") (node.property? "version")
  return .app name version

/-- The section of a node. -/
def readSection (node : Node) : Read Section :=
  match node.name with
  | "app" => readApp node
  | "process" => (readProcess node).map .process
  | "ports" => (readProcessPorts node).map .ports
  | "exposed-ports" | "exposed_ports" => (readExposedPorts node).map .exposedPorts
  | "healthcheck" => (readProbes node).map .healthcheck
  | "labels" => (readItems node).map .labels
  | "annotations" => (readItems node).map .annotations
  | _ => .ok .unknown

/-- What a section adds to an application. -/
def addSection (app : App) : Section → Read App
  | .app name version => .ok { app with name, version := version.getD app.version }
  | .process spec =>
    if (app.process? spec.name).isSome then .error (.duplicateProcess spec.name)
    else .ok { app with processes := app.processes ++ [spec] }
  | .ports declarations =>
    .ok { app with ports := declarations.foldl (fun ports d => ports.declare d.1 d.2) app.ports }
  | .exposedPorts ports =>
    .ok { app with ports := { app.ports with exposed := app.ports.exposed ++ ports } }
  | .healthcheck probes => .ok { app with ports := { app.ports with healthcheck := probes } }
  | .labels items => .ok { app with labels := app.labels ++ items }
  | .annotations items => .ok { app with annotations := app.annotations ++ items }
  | .unknown => .ok app

/-- The application with the section of a node. -/
def addNode (app : App) (node : Node) : Read App := do
  let part ← readSection node
  addSection app part

end Config

/-- The application that a document declares. `name` names it if no section does. -/
def App.ofDocument (name : String) (document : Kdl.Document) : Config.Read App :=
  document.foldlM Config.addNode (App.blank name)

/-- The application that a text declares. -/
def App.ofText (name : String) (text : String) : Except Fault App :=
  match Kdl.Document.ofText? text with
  | none => .error .notKdl
  | some document => (App.ofDocument name document).mapError .badConfig

end ProcessPlan
