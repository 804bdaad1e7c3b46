import ProcessPlan.Ports.Source
import ProcessPlan.Table

/-!
# Declared ports

The ports of a configuration: each process declares its own, and the ports that the image exposes
stand in for a process that declares none.

## Main definitions

* `DeclaredPorts`: the declarations, the exposed ports and the probes
* `DeclaredPorts.declarations`: the declarations that count for a process
* `DeclaredPorts.source`: the source of ports that they make up
-/

namespace ProcessPlan

/-- The ports and probes that a configuration declares. -/
structure DeclaredPorts where
  processes : Table (List PortDeclaration)
  exposed : List UInt16
  healthcheck : Probes
deriving DecidableEq

/-- The declaration that an exposed port stands for. -/
def PortDeclaration.ofExposed (number : UInt16) : PortDeclaration where
  name := none
  protocol := .standard
  number := number
  target := some number

/-- The container port of a declaration. -/
def PortDeclaration.toContainerPort (d : PortDeclaration) : ContainerPort :=
  ⟨d.name, d.containerNumber, d.protocol⟩

/-- The service port of a declaration. -/
def PortDeclaration.toServicePort (d : PortDeclaration) : ServicePort :=
  ⟨d.name, d.number, some d.containerNumber, d.protocol⟩

/-- Container ports with each number once, where it stands first. -/
def distinctPorts (ports : List ContainerPort) : List ContainerPort :=
  ports.foldl
    (fun seen port => if seen.any (·.number = port.number) then seen else seen ++ [port]) []

namespace DeclaredPorts

/-- No ports and no probes. -/
def empty : DeclaredPorts := ⟨∅, [], .none⟩

/-- The declarations that count for a process: its own, or else those of the exposed ports. -/
def declarations (p : DeclaredPorts) (process : String) : List PortDeclaration :=
  match (p.processes.find? process).getD [] with
  | [] => p.exposed.map .ofExposed
  | own => own

/-- The probes, if all of them are well formed. -/
def probes (p : DeclaredPorts) : Except PortFault Probes :=
  match p.healthcheck.fault? with
  | some (kind, fault) => .error (.badProbe kind fault)
  | none => .ok p.healthcheck

/-- The source of ports that the declarations make up. A container port that several declarations
lead to is listed once; every declaration has its service port. -/
def source (p : DeclaredPorts) : PortSource where
  containerPorts process := distinctPorts ((p.declarations process).map (·.toContainerPort))
  servicePorts process := (p.declarations process).map (·.toServicePort)
  probes := p.probes.mapError Fault.badPorts

/-- The ports with more declarations of a process after those it has. -/
def declare (p : DeclaredPorts) (process : String) (more : List PortDeclaration) : DeclaredPorts :=
  { p with processes := p.processes.insert process ((p.processes.find? process).getD [] ++ more) }

end DeclaredPorts

end ProcessPlan
