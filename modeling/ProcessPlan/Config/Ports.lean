import ProcessPlan.Config.Scalar
import ProcessPlan.Workload.Port

/-!
# Reading ports

## Main definitions

* `Config.readPortDeclaration`: a port
* `Config.readProcessPorts`: the ports of each process of a section
* `Config.readExposedPorts`: the ports that the image exposes
-/

namespace ProcessPlan.Config

open Kdl (Node)

/-- The protocol of a port. -/
def readProtocol (node : Node) : Read Protocol :=
  match node.propertyText? "protocol" with
  | none => .ok .standard
  | some name =>
    match Protocol.ofName? name with
    | some protocol => .ok protocol
    | none => .error (.unknownProtocol name)

/-- A port. Its number is a property or else the first argument. -/
def readPortDeclaration (node : Node) : Read PortDeclaration := do
  let number ← match (node.property? "port").or node.argument? with
    | some value => readPort "port" value
    | none => .error .missingPort
  let target ← optional (readPort "target")
    ((node.property? "target").or (node.property? "target_port"))
  let protocol ← readProtocol node
  return { name := node.propertyText? "name", protocol, number, target }

/-- The ports of one process. -/
def readPortsOfProcess (node : Node) : Read (String × List PortDeclaration) := do
  let name ← readName "ports.process" node
  let declarations ← (node.childNodes.filter (·.name = "port")).mapM readPortDeclaration
  return (name, declarations)

/-- The ports of each process of a section, in order; a process may stand there several times. -/
def readProcessPorts (node : Node) : Read (List (String × List PortDeclaration)) :=
  (node.childNodes.filter (·.name = "process")).mapM readPortsOfProcess

/-- The ports that the image exposes. -/
def readExposedPorts (node : Node) : Read (List UInt16) :=
  node.arguments.mapM (readPort "exposed-ports")

end ProcessPlan.Config
