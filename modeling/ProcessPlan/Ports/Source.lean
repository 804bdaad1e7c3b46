import ProcessPlan.Fault
import ProcessPlan.Text.Basic
import ProcessPlan.Workload.Container
import ProcessPlan.Workload.Port

/-!
# Sources of ports

A source of ports answers, for the name of a process, which ports its container listens on and which
ones its service publishes, and offers the probes of all processes. A process learns its ports from
environment variables derived from them.

## Main definitions

* `PortSource`: sources of ports
* `portVariables`: the environment variables derived from container ports
-/

namespace ProcessPlan

/-- A source of ports and probes. One that has no probes to offer says why, with whatever fault it
likes. -/
structure PortSource where
  containerPorts : (process : String) → List ContainerPort
  servicePorts : (process : String) → List ServicePort
  probes : Except Fault Probes

/-- The numbers of container ports in decimal, with commas between them. -/
def portNumbers (ports : List ContainerPort) : String :=
  Text.join "," (ports.map fun port => toString port.number.toNat)

/-- The environment variables that tell a process its ports: `port` and `PORT` if there is exactly
one, and `PORT_` with the name of the process, which holds all of them, if there is any. -/
def portVariables (process : String) (ports : List ContainerPort) : List EnvVar :=
  let all : EnvVar := ⟨"PORT_" ++ process, portNumbers ports⟩
  match ports with
  | [] => []
  | [port] => [⟨"port", toString port.number.toNat⟩, ⟨"PORT", toString port.number.toNat⟩, all]
  | _ => [all]

end ProcessPlan
