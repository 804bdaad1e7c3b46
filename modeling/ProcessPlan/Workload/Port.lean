import ProcessPlan.Text.Basic

/-!
# Ports

## Main definitions

* `Protocol`, `Protocol.ofName?`: transport protocols, by name in any case
* `ContainerPort`, `ServicePort`: the two sides of a published port
* `PortDeclaration`: a port of a process as a configuration declares it
-/

namespace ProcessPlan

/-- A transport protocol. -/
inductive Protocol where
  | tcp
  | udp
  | sctp
deriving DecidableEq

namespace Protocol

/-- The protocol where none is named. -/
def standard : Protocol := .tcp

/-- The protocol of a name, in any case. -/
def ofName? (name : String) : Option Protocol :=
  match Text.lower name with
  | "tcp" => some .tcp
  | "udp" => some .udp
  | "sctp" => some .sctp
  | _ => none

/-- The written name. -/
def name : Protocol → String
  | tcp => "TCP"
  | udp => "UDP"
  | sctp => "SCTP"

end Protocol

/-- A port that the container listens on. -/
structure ContainerPort where
  name : Option String
  number : UInt16
  protocol : Protocol
deriving DecidableEq

/-- A port that the service publishes, and the container port it leads to. -/
structure ServicePort where
  name : Option String
  number : UInt16
  target : Option UInt16
  protocol : Protocol
deriving DecidableEq

/-- A port of a process as declared: the number that the service publishes, and where it leads. -/
structure PortDeclaration where
  name : Option String
  protocol : Protocol
  number : UInt16
  target : Option UInt16
deriving DecidableEq

/-- The container port of a declaration: the target, or else the published number itself. -/
def PortDeclaration.containerNumber (d : PortDeclaration) : UInt16 := d.target.getD d.number

end ProcessPlan
