import ProcessPlan.Ports.Declared
import ProcessPlan.Proofs.Overlay.Fault

/-!
# Declared ports as a source

What overlays see of the ports that a configuration declares: there are ports on both sides, or on
neither, and which it is depends on the declarations that count for the process; the probes are
refused with the first fault of the healthcheck, and for no other reason.

## Main definitions

* `DeclaredPorts.Bare`: nothing is declared for a process and nothing exposed

## Main results

* `DeclaredPorts.declarations_eq_nil_iff`: when no declaration counts
* `distinctPorts_concat`, `distinctPorts_eq_nil_iff`: what is kept of the container ports
* `DeclaredPorts.opens_source_iff`, `DeclaredPorts.fault?_source`
* `DeclaredPorts.neverReportsMissing_source`
-/

namespace ProcessPlan

/-! ### Distinct ports -/

/-- A last port is listed unless its number is there already. -/
theorem distinctPorts_concat (ports : List ContainerPort) (port : ContainerPort) :
    distinctPorts (ports ++ [port])
      = if (distinctPorts ports).any (·.number = port.number) then distinctPorts ports
        else distinctPorts ports ++ [port] := by
  rw [distinctPorts, List.foldl_append]
  rfl

theorem distinctPorts_eq_nil_iff {ports : List ContainerPort} :
    distinctPorts ports = [] ↔ ports = [] := by
  rcases List.eq_nil_or_concat ports with rfl | ⟨before, last, rfl⟩
  · simp [distinctPorts]
  · rw [List.concat_eq_append, distinctPorts_concat]
    split
    · next hany =>
      have hne : distinctPorts before ≠ [] := by
        intro hnil
        simp [hnil] at hany
      simp [hne]
    · simp

namespace DeclaredPorts

/-! ### The declarations that count -/

variable {p : DeclaredPorts} {process : String}

/-- Nothing is declared for a process, and nothing is exposed. -/
def Bare (p : DeclaredPorts) (process : String) : Prop :=
  (p.processes.find? process).getD [] = [] ∧ p.exposed = []

instance (p : DeclaredPorts) (process : String) : Decidable (p.Bare process) :=
  inferInstanceAs (Decidable (_ ∧ _))

/-- A process without declarations of its own has those of the exposed ports. -/
theorem declarations_eq (p : DeclaredPorts) (process : String) :
    p.declarations process
      = if (p.processes.find? process).getD [] = [] then
          p.exposed.map fun number => ⟨none, .tcp, number, some number⟩
        else (p.processes.find? process).getD [] := by
  rw [declarations]
  split
  · next hown =>
    rw [hown, if_pos rfl]
    rfl
  · next hown => rw [if_neg hown]

theorem declarations_eq_nil_iff : p.declarations process = [] ↔ p.Bare process := by
  rw [declarations_eq, Bare]
  split <;> next hown => simp [hown]

/-- A declaration counts exactly if there is one for the process, or a port is exposed. -/
theorem declarations_ne_nil_iff : p.declarations process ≠ [] ↔
    (p.processes.find? process).getD [] ≠ [] ∨ p.exposed ≠ [] := by
  rw [Ne, declarations_eq_nil_iff, Bare, Classical.not_and_iff_not_or_not]

/-! ### The source -/

/-- Declared ports open for a process exactly if a declaration counts for it. -/
theorem opens_source_iff :
    p.source.Opens process ↔ p.declarations process ≠ [] := by
  simp [PortSource.Opens, source, distinctPorts_eq_nil_iff]

/-- Declared ports have the first fault of their healthcheck. -/
theorem fault?_source (p : DeclaredPorts) :
    p.source.fault?
      = p.healthcheck.fault?.map fun (kind, fault) => .badPorts (.badProbe kind fault) := by
  show PortSource.fault? p.source = _
  rw [PortSource.fault?, show p.source.probes = p.probes.mapError Fault.badPorts from rfl, probes]
  cases p.healthcheck.fault? <;> rfl

/-- Declared ports never report that ports are missing. -/
theorem neverReportsMissing_source (p : DeclaredPorts) : p.source.NeverReportsMissing := by
  intro process hprobes
  rw [← PortSource.fault?_eq_some_iff, fault?_source, Option.map_eq_some_iff] at hprobes
  obtain ⟨_, -, hfault⟩ := hprobes
  cases hfault

end DeclaredPorts

end ProcessPlan
