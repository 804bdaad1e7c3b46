import ProcessPlan.Proofs.Overlay.Wiring

/-!
# Faults of overlays

Whether an overlay fails, and with which fault, depends on the name of the process and on nothing
else of the descriptor. Overlays never change the name, so the fault of a whole list can be told
without applying it: it is the first fault among its members.

## Main definitions

* `PortSource.fault?`: why a source has no probes to offer
* `PortSource.NeverReportsMissing`: a source that never reports missing ports of itself
* `Overlay.faultFor?`: the fault of an overlay on any descriptor of a name

## Main results

* `Overlay.name_apply`: the name of a descriptor never changes
* `Overlay.fault_apply`, `Overlay.fault_applyAll`: faults of overlays, and of lists of them
* `Overlay.runs_iff`, `Overlay.failsWith_iff`: the same for runs
-/

namespace ProcessPlan

/-- Why a source has no probes to offer. -/
def PortSource.fault? (source : PortSource) : Option Fault :=
  match source.probes with
  | .error fault => some fault
  | .ok _ => none

theorem PortSource.fault?_eq_some_iff {source : PortSource} {fault : Fault} :
    source.fault? = some fault ↔ source.probes = .error fault := by
  rw [fault?]
  cases source.probes <;> simp

/-- A source never reports missing ports of itself. It is free to, but that ports are missing is for
the end of a build to say. -/
def PortSource.NeverReportsMissing (source : PortSource) : Prop :=
  ∀ process, source.probes ≠ .error (.missingPorts process)

namespace Overlay

variable {overlay : Overlay} {overlays : List Overlay} {d d' : Descriptor} {fault : Fault}

/-! ### The name -/

/-- No overlay changes the name of a descriptor. -/
@[simp] theorem name_apply (overlay : Overlay) (d : Descriptor) :
    (overlay.apply d).state.name = d.name := by
  cases overlay with
  | portsAndProbes source =>
    have hname := congrArg Descriptor.name (withoutWiring_wirePorts source d)
    exact hname
  | metadata kind items version => exact d.name_applyItems kind version items
  | units count => rw [state_apply_units]
  | _ => rfl

theorem name_eq_of_step (h : overlay.apply d = ⟨d', none⟩) : d'.name = d.name := by
  have hname := overlay.name_apply d
  rwa [h] at hname

/-! ### One overlay -/

/-- The fault that an overlay ends with on a descriptor of a process. -/
def faultFor? (process : String) : Overlay → Option Fault
  | units count => if count = some 0 then some (.badConfig (.noUnits process)) else none
  | portsAndProbes source =>
    if source.Opens process then source.fault? else none
  | metadata kind items version =>
    ((items.filter (·.InScope process version)).findSome? (·.fault? kind)).map .badItem
  | _ => none

theorem fault_wirePorts (source : PortSource) (d : Descriptor) :
    (wirePorts source d).fault
      = if source.Opens d.name then source.fault? else none := by
  by_cases hopens : source.Opens d.name
  · rw [if_pos hopens, PortSource.fault?]
    cases hprobes : source.probes with
    | error fault => rw [wirePorts_of_error hopens hprobes]
    | ok probes => rw [wirePorts_of_ok hopens hprobes]
  · rw [if_neg hopens, wirePorts_of_not_opens hopens]

/-- The fault of an overlay depends on the name of the process alone. -/
theorem fault_apply (overlay : Overlay) (d : Descriptor) :
    (overlay.apply d).fault = overlay.faultFor? d.name := by
  cases overlay with
  | units count =>
    rcases count with _ | count
    · rfl
    · by_cases hcount : count = 0 <;> simp [apply, faultFor?, hcount]
  | portsAndProbes source => exact fault_wirePorts source d
  | metadata kind items version => exact d.fault_applyItems kind version items
  | _ => rfl

/-- No overlay says that ports are missing, unless the source that it wires does. -/
theorem faultFor?_ne_missingPorts (process missing : String)
    (h : ∀ source, overlay.source? = some source → source.NeverReportsMissing) :
    overlay.faultFor? process ≠ some (.missingPorts missing) := by
  cases overlay with
  | units count => by_cases hcount : count = some 0 <;> simp [faultFor?, hcount]
  | portsAndProbes source =>
    rw [faultFor?]
    split
    · rw [Ne, PortSource.fault?_eq_some_iff]
      exact h source rfl missing
    · simp
  | metadata kind items version =>
    rw [faultFor?, Ne, Option.map_eq_some_iff]
    rintro ⟨itemFault, -, hfault⟩
    exact absurd hfault (by simp)
  | _ => simp [faultFor?]

/-! ### Lists of overlays -/

/-- The fault of a list of overlays is the first among them. -/
theorem fault_applyAll (overlays : List Overlay) (d : Descriptor) :
    (applyAll overlays d).fault = overlays.findSome? (·.faultFor? d.name) := by
  induction overlays generalizing d with
  | nil => rfl
  | cons overlay rest ih =>
    rw [List.findSome?_cons, ← fault_apply]
    rcases hfirst : overlay.apply d with ⟨d', _ | fault⟩
    · rw [applyAll_cons_of_none hfirst, ih, name_eq_of_step hfirst]
    · rw [applyAll_cons_of_some (by rw [hfirst]), hfirst]

/-- A list of overlays runs to an end exactly if none of them has a fault. -/
theorem runs_iff : (∃ s, Runs overlays d s) ↔ overlays.findSome? (·.faultFor? d.name) = none := by
  rw [← fault_applyAll]
  constructor
  · rintro ⟨s, hrun⟩
    rw [applyAll_eq_none_iff.mpr hrun]
  · intro h
    exact ⟨(applyAll overlays d).state, applyAll_eq_none_iff.mp (by rw [← h])⟩

/-- A list of overlays fails exactly with the first fault among them. -/
theorem failsWith_iff :
    FailsWith overlays d fault ↔ overlays.findSome? (·.faultFor? d.name) = some fault := by
  rw [← fault_applyAll, applyAll_fault_eq_some_iff]

end Overlay

end ProcessPlan
