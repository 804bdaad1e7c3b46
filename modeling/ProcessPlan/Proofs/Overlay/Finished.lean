import ProcessPlan.Proofs.Overlay.Fault

/-!
# Finished descriptors

Whatever overlays are applied, in whatever order and however often, a descriptor keeps the name and
the routing it was started with and never falls below one instance. So a build that ends well has
these three properties, and open ports besides if the process takes traffic. The fault that says
that ports are missing comes from the last check of a build and, since a source of ports may report
what it likes, from sources that report it of themselves.

## Main definitions

* `Descriptor.BuiltFor`: the invariant of all descriptors on the way

## Main results

* `Overlay.builtFor_apply`, `Overlay.Runs.builtFor`: the invariant, for one overlay and for a run
* `build_eq_error_iff_of_runs`: what a build that fails reports
* `build_invariant`: what holds of finished descriptors, and when ports are missing
-/

namespace ProcessPlan

/-- What no overlay takes away from a descriptor: its name, its routing, and an instance. -/
structure Descriptor.BuiltFor (name : String) (routable : Bool) (d : Descriptor) : Prop where
  name : d.name = name
  routable : d.routable = routable
  instanceCount : 1 ≤ d.instanceCount

namespace Overlay

variable {name : String} {routable : Bool} {overlay : Overlay} {overlays : List Overlay}
  {d s : Descriptor} {fault : Fault}

/-! ### The invariant -/

theorem builtFor_blank (name : String) (routable : Bool) :
    (Descriptor.blank name routable).BuiltFor name routable :=
  ⟨rfl, rfl, UInt32.le_refl 1⟩

theorem builtFor_wirePorts (source : PortSource) (h : d.BuiltFor name routable) :
    (wirePorts source d).state.BuiltFor name routable := by
  have hrest : d.withoutWiring.BuiltFor name routable := ⟨h.name, h.routable, h.instanceCount⟩
  rw [← withoutWiring_wirePorts source d] at hrest
  exact ⟨hrest.name, hrest.routable, hrest.instanceCount⟩

theorem builtFor_applyItems (kind : MetadataKind) (version : Version) (items : List MetadataItem)
    (h : d.BuiltFor name routable) :
    (d.applyItems kind version items).state.BuiltFor name routable := by
  have hrest : d.withoutMetadata.BuiltFor name routable := ⟨h.name, h.routable, h.instanceCount⟩
  rw [← d.withoutMetadata_applyItems kind version items] at hrest
  exact ⟨hrest.name, hrest.routable, hrest.instanceCount⟩

/-- A number of instances that is not refused is at least 1. -/
theorem builtFor_units (count : Option UInt32) (h : d.BuiltFor name routable) :
    ((units count).apply d).state.BuiltFor name routable := by
  rcases count with _ | count
  · exact h
  · rw [apply]
    split
    · exact h
    · next hcount =>
      have hpos : 1 ≤ count := by
        rw [← UInt32.toNat_inj] at hcount
        rw [UInt32.le_iff_toNat_le]
        exact Nat.one_le_iff_ne_zero.mpr hcount
      exact ⟨h.name, h.routable, hpos⟩

/-- Every overlay keeps the invariant, whether it ends with a fault or not. -/
theorem builtFor_apply (overlay : Overlay) (d : Descriptor) (h : d.BuiltFor name routable) :
    (overlay.apply d).state.BuiltFor name routable := by
  cases overlay with
  | units count => exact builtFor_units count h
  | portsAndProbes source => exact builtFor_wirePorts source h
  | metadata kind items version => exact builtFor_applyItems kind version items h
  | _ => exact ⟨h.name, h.routable, h.instanceCount⟩

/-- A run from a blank descriptor ends with the invariant. -/
theorem Runs.builtFor (h : Runs overlays (.blank name routable) s) : s.BuiltFor name routable :=
  h.preserves (fun overlay _ d hd => builtFor_apply overlay d hd) (builtFor_blank name routable)

/-- No list of overlays fails with missing ports, unless one of its sources does. -/
theorem FailsWith.ne_missingPorts (h : FailsWith overlays d fault)
    (hsources : ∀ source ∈ sources overlays, source.NeverReportsMissing) (process : String) :
    fault ≠ .missingPorts process := by
  obtain ⟨before, overlay, after, s, rfl, -, hfault⟩ := h
  rintro rfl
  rw [fault_apply] at hfault
  refine faultFor?_ne_missingPorts s.name process (fun source hsource => ?_) hfault
  exact hsources source (List.mem_filterMap.mpr ⟨overlay, by simp, hsource⟩)

end Overlay

/-! ### Builds -/

/-- A build reports what the first overlay that fails does, unchanged, or else missing ports if the
process takes traffic and a side of it has been left without a port. -/
theorem build_eq_error_iff_of_runs (name : String) (routable : Bool) (overlays : List Overlay)
    (fault : Fault) : build name routable overlays = .error fault ↔
      Overlay.FailsWith overlays (.blank name routable) fault ∨
        fault = .missingPorts name ∧ routable = true ∧
          ∃ s, Overlay.Runs overlays (.blank name routable) s ∧
            (s.containerPorts = [] ∨ s.servicePorts = []) := by
  rw [build_eq_error_iff]
  refine or_congr Iff.rfl ⟨?_, ?_⟩
  · rintro ⟨s, hrun, hroutable, hports, rfl⟩
    have hs := hrun.builtFor
    exact ⟨by rw [hs.name], hs.routable.symm.trans hroutable, s, hrun,
      Descriptor.hasOpenPort_eq_false_iff.mp hports⟩
  · rintro ⟨rfl, rfl, s, hrun, hports⟩
    have hs := hrun.builtFor
    exact ⟨s, hrun, hs.routable, Descriptor.hasOpenPort_eq_false_iff.mpr hports, by rw [hs.name]⟩

/-- **What every build keeps.** A finished descriptor has the given name and routing, at least one
instance, and open ports if it takes traffic. A build that fails reports what the first overlay that
fails does, unchanged, or else that ports are missing, because a process that takes traffic has been
left without a port on one side. So ports are reported missing exactly in that last case, as long as
no source reports the same of itself. -/
theorem build_invariant (name : String) (routable : Bool) (overlays : List Overlay) :
    (∀ d, build name routable overlays = .ok d →
      d.name = name ∧ d.routable = routable ∧ 1 ≤ d.instanceCount ∧
        (routable = true → d.containerPorts ≠ [] ∧ d.servicePorts ≠ [])) ∧
    (∀ fault, build name routable overlays = .error fault ↔
      Overlay.FailsWith overlays (.blank name routable) fault ∨
        fault = .missingPorts name ∧ routable = true ∧
          ∃ s, Overlay.Runs overlays (.blank name routable) s ∧
            (s.containerPorts = [] ∨ s.servicePorts = [])) ∧
    ((∀ source ∈ Overlay.sources overlays, source.NeverReportsMissing) →
      ∀ process, build name routable overlays = .error (.missingPorts process) ↔
        process = name ∧ routable = true ∧
          ∃ s, Overlay.Runs overlays (.blank name routable) s ∧
            (s.containerPorts = [] ∨ s.servicePorts = [])) := by
  refine ⟨fun d hbuild => ?_, build_eq_error_iff_of_runs name routable overlays,
    fun hsources process => ?_⟩
  · obtain ⟨s, hrun, hports, rfl⟩ := build_eq_ok_iff.mp hbuild
    have hs := hrun.builtFor
    exact ⟨hs.name, hs.routable, hs.instanceCount,
      fun hroutable => Descriptor.hasOpenPort_iff.mp (hports (hs.routable.trans hroutable))⟩
  · have hnever : ¬ Overlay.FailsWith overlays (.blank name routable) (.missingPorts process) :=
      fun hfails => hfails.ne_missingPorts hsources process rfl
    rw [build_eq_error_iff_of_runs, or_iff_right hnever, Fault.missingPorts.injEq]

/-- Overlays that leave a process without a service port. The source has no probes to offer, but
nobody asks it for them. -/
def Overlay.unpublished : List Overlay :=
  [.units (some 2), .portsAndProbes
    { containerPorts := fun _ => [⟨none, 8080, .tcp⟩]
      servicePorts := fun _ => []
      probes := .error (.badPorts (.other "no probes")) }]

/-- Ports are reported missing if the process takes traffic. -/
theorem build_unpublished :
    build "web" true Overlay.unpublished = .error (.missingPorts "web") := by
  obtain ⟨-, -, hmissing⟩ := build_invariant "web" true Overlay.unpublished
  refine (hmissing ?_ "web").mpr ⟨rfl, rfl, _, .step rfl (.step rfl (.done _)), .inr rfl⟩
  intro source hsource process hprobes
  obtain rfl := List.mem_singleton.mp hsource
  cases hprobes

/-- A source with ports on both sides that reports missing ports when it is asked for its probes. -/
def PortSource.denying : PortSource where
  containerPorts _ := [⟨none, 8080, .tcp⟩]
  servicePorts _ := [⟨none, 80, none, .tcp⟩]
  probes := .error (.missingPorts "web")

/-- What a source reports of itself is passed on, even for a process that takes no traffic. -/
example : build "web" false [.portsAndProbes .denying] = .error (.missingPorts "web") := rfl

end ProcessPlan
