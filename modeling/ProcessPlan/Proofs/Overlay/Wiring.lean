import ProcessPlan.Proofs.Metadata.Merge
import ProcessPlan.Proofs.Overlay.Run

/-!
# Wiring ports and probes

One overlay writes both lists of ports, and the public port and the probes only where both lists
have something in them. What it does is stated here once for each of its three endings. What all
other overlays do to these fields, and what this one does to all other fields, is nothing.

## Main definitions

* `PortSource.Opens`: a source has ports for a process on both sides
* `Overlay.source?`, `Overlay.sources`: the sources that overlays wire
* `Wiring`, `Descriptor.wiring`, `Descriptor.setWiring`: the fields that come from a source
* `Descriptor.withoutWiring`: all other fields

## Main results

* `Overlay.wirePorts_of_not_opens`, `Overlay.wirePorts_of_ok`, `Overlay.wirePorts_of_error`
* `Overlay.wiring_apply_of_source?_eq_none`, `Overlay.withoutWiring_wirePorts`
-/

namespace ProcessPlan

/-- A source has ports for the container of a process and for its service. -/
def PortSource.Opens (source : PortSource) (process : String) : Prop :=
  source.containerPorts process ≠ [] ∧ source.servicePorts process ≠ []

instance (source : PortSource) (process : String) : Decidable (source.Opens process) :=
  inferInstanceAs (Decidable (_ ∧ _))

/-- What of a descriptor comes from a source of ports. -/
structure Wiring where
  containerPorts : List ContainerPort
  servicePorts : List ServicePort
  publicServicePort : Option UInt16
  probes : Probes

/-- No ports and no probes. -/
def Wiring.empty : Wiring := ⟨[], [], none, .none⟩

namespace Descriptor

/-! ### The fields of the wiring -/

/-- The ports and probes of a descriptor. -/
def wiring (d : Descriptor) : Wiring where
  containerPorts := d.containerPorts
  servicePorts := d.servicePorts
  publicServicePort := d.publicServicePort
  probes := ⟨d.readinessProbe, d.livenessProbe, d.startupProbe⟩

/-- The descriptor with other ports and probes. -/
def setWiring (d : Descriptor) (w : Wiring) : Descriptor :=
  { d with
    containerPorts := w.containerPorts
    servicePorts := w.servicePorts
    publicServicePort := w.publicServicePort
    readinessProbe := w.probes.readiness
    livenessProbe := w.probes.liveness
    startupProbe := w.probes.startup }

/-- The descriptor with its ports and probes removed. -/
def withoutWiring (d : Descriptor) : Descriptor := d.setWiring .empty

@[simp] theorem wiring_setWiring (d : Descriptor) (w : Wiring) : (d.setWiring w).wiring = w := rfl

@[simp] theorem withoutWiring_setWiring (d : Descriptor) (w : Wiring) :
    (d.setWiring w).withoutWiring = d.withoutWiring := rfl

theorem hasOpenPort_iff {d : Descriptor} :
    d.hasOpenPort = true ↔ d.containerPorts ≠ [] ∧ d.servicePorts ≠ [] := by
  simp [hasOpenPort]

theorem hasOpenPort_eq_false_iff {d : Descriptor} :
    d.hasOpenPort = false ↔ d.containerPorts = [] ∨ d.servicePorts = [] := by
  by_cases h : d.containerPorts = [] <;> simp [hasOpenPort, h]

end Descriptor

namespace Overlay

variable {source : PortSource} {d : Descriptor}

/-! ### The three endings of one wiring -/

/-- The wiring of a descriptor before the probes are asked for. -/
def openWiring (source : PortSource) (d : Descriptor) : Wiring :=
  { d.wiring with
    containerPorts := source.containerPorts d.name
    servicePorts := source.servicePorts d.name }

/-- The wiring that a source and its probes make up. -/
def fullWiring (source : PortSource) (process : String) (probes : Probes) : Wiring where
  containerPorts := source.containerPorts process
  servicePorts := source.servicePorts process
  publicServicePort := (source.servicePorts process).head?.map (·.number)
  probes := probes

theorem hasOpenPort_openWiring :
    (d.setWiring (openWiring source d)).hasOpenPort = true ↔ source.Opens d.name :=
  Descriptor.hasOpenPort_iff

theorem wirePorts_of_not_opens (h : ¬ source.Opens d.name) :
    wirePorts source d = ⟨d.setWiring (openWiring source d), none⟩ := by
  rw [← hasOpenPort_openWiring] at h
  exact if_neg h

theorem wirePorts_of_error {fault : Fault} (h : source.Opens d.name)
    (hprobes : source.probes = .error fault) :
    wirePorts source d = ⟨d.setWiring (openWiring source d), some fault⟩ := by
  rw [← hasOpenPort_openWiring] at h
  refine (if_pos h).trans ?_
  rw [hprobes]
  rfl

theorem wirePorts_of_ok {probes : Probes} (h : source.Opens d.name)
    (hprobes : source.probes = .ok probes) :
    wirePorts source d = ⟨d.setWiring (fullWiring source d.name probes), none⟩ := by
  rw [← hasOpenPort_openWiring] at h
  refine (if_pos h).trans ?_
  rw [hprobes]
  rfl

/-- Wiring changes nothing but ports and probes, whether it ends with a fault or not. -/
theorem withoutWiring_wirePorts (source : PortSource) (d : Descriptor) :
    (wirePorts source d).state.withoutWiring = d.withoutWiring := by
  by_cases h : source.Opens d.name
  · cases hprobes : source.probes with
    | error fault =>
      rw [wirePorts_of_error h hprobes]
      exact d.withoutWiring_setWiring _
    | ok probes =>
      rw [wirePorts_of_ok h hprobes]
      exact d.withoutWiring_setWiring _
  · rw [wirePorts_of_not_opens h]
    exact d.withoutWiring_setWiring _

/-! ### Which overlays wire -/

/-- The source that an overlay wires, if it is of that kind. -/
def source? : Overlay → Option PortSource
  | portsAndProbes source => some source
  | _ => none

/-- The sources that a list of overlays wires, in order. -/
def sources (overlays : List Overlay) : List PortSource := overlays.filterMap source?

theorem eq_portsAndProbes_of_source? {overlay : Overlay} (h : overlay.source? = some source) :
    overlay = .portsAndProbes source := by
  cases overlay with
  | portsAndProbes other => rw [source?, Option.some.injEq] at h; rw [h]
  | _ => exact absurd h (by simp [source?])

/-- An overlay of any other kind leaves the ports and probes as they are. -/
theorem wiring_apply_of_source?_eq_none {overlay : Overlay} (h : overlay.source? = none)
    (d : Descriptor) : (overlay.apply d).state.wiring = d.wiring := by
  cases overlay with
  | portsAndProbes source => exact absurd h (by simp [source?])
  | metadata kind items version =>
    have hmeta := congrArg Descriptor.wiring (d.withoutMetadata_applyItems kind version items)
    exact hmeta
  | units count =>
    rw [state_apply_units]
    rfl
  | _ => rfl

end Overlay

end ProcessPlan
