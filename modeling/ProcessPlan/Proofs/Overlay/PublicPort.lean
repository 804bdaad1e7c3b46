import ProcessPlan.Proofs.Overlay.Finished

/-!
# The public port and the probes

A process is meant to have a public port and probes just where it has ports on both sides. Wiring
writes both lists of ports every time, but the public port and the probes only where the source has
ports on both sides; it never takes them back. So the lists are those of the source that is wired
last, and the public port and the probes those of the last source that opens ports. The two agree
if these are one source, or if no source opens ports at all, and in no other case.

Whether a process ends up with open ports can be told from its last source, too, and so what a build
that fails reports can be read off the list of overlays, without a descriptor.

## Main definitions

* `PortSource.constant`: a source that does not look at the process
* `PortSource.lastOpening?`: the last of a list of sources that opens ports
* `Wiring.After`: what the wiring is after a list of sources
* `Overlay.LastOpens`: the source that is wired last opens ports
* `Descriptor.PortsCoherent`: the public port and the probes fit the lists of ports

## Main results

* `Overlay.after_of_step`, `Overlay.Runs.wiring_after`: the wiring after one overlay, and a run
* `closed_iff_not_lastOpens`: when a run leaves a side without ports
* `build_eq_error_iff_of_faults`: what a build that fails reports
* `portsCoherent_iff`: when they fit, in every finished descriptor
* `exists_stale_public_port`: a build after which they do not
-/

namespace ProcessPlan

/-! ### The last source that opens ports -/

namespace PortSource

/-- The source that gives every process the same ports and probes. -/
def constant (container : List ContainerPort) (service : List ServicePort) (probes : Probes) :
    PortSource where
  containerPorts _ := container
  servicePorts _ := service
  probes := .ok probes

variable {process : String} {source last : PortSource} {sources : List PortSource}

/-- The last of a list of sources that opens ports for a process. -/
def lastOpening? (process : String) (sources : List PortSource) : Option PortSource :=
  sources.reverse.find? fun source => source.Opens process

theorem lastOpening?_concat (process : String) (sources : List PortSource) (source : PortSource) :
    lastOpening? process (sources ++ [source])
      = if source.Opens process then some source else lastOpening? process sources := by
  by_cases h : source.Opens process <;> simp [lastOpening?, h]

theorem opens_of_lastOpening? (h : lastOpening? process sources = some source) :
    source.Opens process := by
  simpa using List.find?_some h

theorem lastOpening?_eq_none_iff :
    lastOpening? process sources = none ↔ ∀ source ∈ sources, ¬ source.Opens process := by
  simp [lastOpening?]

/-- If the last source of all opens ports, it is the last one that does. -/
theorem lastOpening?_of_getLast? (hlast : sources.getLast? = some last)
    (hopens : last.Opens process) : lastOpening? process sources = some last := by
  obtain ⟨before, rfl⟩ := List.getLast?_eq_some_iff.mp hlast
  rw [lastOpening?_concat, if_pos hopens]

end PortSource

/-! ### The wiring after a list of sources -/

/-- The wiring of a process after a list of sources: both lists of ports are those of the last
source, and the public port and the probes those of the last source that opens ports. -/
structure Wiring.After (process : String) (sources : List PortSource) (w : Wiring) : Prop where
  containerPorts : w.containerPorts = (sources.getLast?.map (·.containerPorts process)).getD []
  servicePorts : w.servicePorts = (sources.getLast?.map (·.servicePorts process)).getD []
  opened : ∀ source, PortSource.lastOpening? process sources = some source →
    w.publicServicePort = (source.servicePorts process).head?.map (·.number) ∧
      source.probes = .ok w.probes
  unopened : PortSource.lastOpening? process sources = none →
    w.publicServicePort = none ∧ w.probes = .none

namespace Wiring

variable {process : String} {sources : List PortSource} {w : Wiring}

theorem after_nil (process : String) : Wiring.empty.After process [] where
  containerPorts := rfl
  servicePorts := rfl
  opened _ h := absurd h (by simp [PortSource.lastOpening?])
  unopened _ := ⟨rfl, rfl⟩

/-- There are ports on both sides exactly if the last source opens ports. -/
theorem After.ports_ne_nil_iff (h : w.After process sources) :
    w.containerPorts ≠ [] ∧ w.servicePorts ≠ [] ↔
      ∃ last, sources.getLast? = some last ∧ last.Opens process := by
  rw [h.containerPorts, h.servicePorts]
  cases sources.getLast? <;> simp [PortSource.Opens]

theorem After.publicServicePort_eq_none_iff (h : w.After process sources) :
    w.publicServicePort = none ↔ ∀ source ∈ sources, ¬ source.Opens process := by
  rw [← PortSource.lastOpening?_eq_none_iff]
  constructor
  · intro hnone
    cases hlast : PortSource.lastOpening? process sources with
    | none => rfl
    | some source =>
      rw [(h.opened source hlast).1, Option.map_eq_none_iff, List.head?_eq_none_iff] at hnone
      exact absurd hnone (PortSource.opens_of_lastOpening? hlast).2
  · intro hnone
    exact (h.unopened hnone).1

end Wiring

namespace Overlay

variable {seen : List PortSource} {overlay : Overlay} {overlays : List Overlay}
  {d d' s : Descriptor}

/-- Wiring one more source, if that succeeds. -/
theorem after_of_wirePorts {source : PortSource} (hd : d.wiring.After d.name seen)
    (h : wirePorts source d = ⟨d', none⟩) : d'.wiring.After d.name (seen ++ [source]) := by
  by_cases hopens : source.Opens d.name
  · cases hprobes : source.probes with
    | error fault =>
      rw [wirePorts_of_error hopens hprobes] at h
      exact absurd (congrArg Applied.fault h) (by simp)
    | ok probes =>
      rw [wirePorts_of_ok hopens hprobes] at h
      obtain rfl : d.setWiring (fullWiring source d.name probes) = d' := congrArg Applied.state h
      refine ⟨by simp [fullWiring], by simp [fullWiring], fun last hlast => ?_, fun hlast => ?_⟩
      · rw [PortSource.lastOpening?_concat, if_pos hopens, Option.some.injEq] at hlast
        subst hlast
        exact ⟨rfl, hprobes⟩
      · rw [PortSource.lastOpening?_concat, if_pos hopens] at hlast
        exact absurd hlast (by simp)
  · -- the lists are replaced, the public port and the probes stay as they were
    rw [wirePorts_of_not_opens hopens] at h
    obtain rfl : d.setWiring (openWiring source d) = d' := congrArg Applied.state h
    refine ⟨by simp [openWiring], by simp [openWiring], fun last hlast => ?_, fun hlast => ?_⟩
    · rw [PortSource.lastOpening?_concat, if_neg hopens] at hlast
      exact hd.opened last hlast
    · rw [PortSource.lastOpening?_concat, if_neg hopens] at hlast
      exact hd.unopened hlast

/-- One overlay that succeeds, of whatever kind. -/
theorem after_of_step (hd : d.wiring.After d.name seen) (h : overlay.apply d = ⟨d', none⟩) :
    d'.wiring.After d.name (seen ++ overlay.source?.toList) := by
  cases hsource : overlay.source? with
  | none =>
    have hkept := wiring_apply_of_source?_eq_none hsource d
    rw [h] at hkept
    rw [show d'.wiring = d.wiring from hkept]
    simpa using hd
  | some source =>
    rw [eq_portsAndProbes_of_source? hsource] at h
    exact after_of_wirePorts hd h

/-- After a run, the wiring is that of the sources seen before and those of the run. -/
theorem Runs.wiring_after (h : Runs overlays d s) (hseen : d.wiring.After d.name seen) :
    s.wiring.After d.name (seen ++ sources overlays) := by
  induction h generalizing seen with
  | done d => simpa [sources] using hseen
  | @step overlay rest d d' s hfirst _ ih =>
    have hstep := after_of_step hseen hfirst
    have hsources : sources (overlay :: rest) = overlay.source?.toList ++ sources rest := by
      cases hsource : overlay.source? <;> simp [sources, hsource]
    rw [← name_eq_of_step hfirst] at hstep ⊢
    rw [hsources, ← List.append_assoc]
    exact ih hstep

end Overlay

/-- The source that is wired last opens ports for a process. -/
def Overlay.LastOpens (process : String) (overlays : List Overlay) : Prop :=
  ∃ last, (Overlay.sources overlays).getLast? = some last ∧ last.Opens process

/-! ### What a build reports -/

section Report

variable {name : String} {routable : Bool} {overlays : List Overlay} {s : Descriptor}
  {fault : Fault}

/-- A run leaves a side without ports exactly if the source that is wired last opens none. -/
theorem closed_iff_not_lastOpens (h : Overlay.Runs overlays (.blank name routable) s) :
    s.containerPorts = [] ∨ s.servicePorts = [] ↔ ¬ Overlay.LastOpens name overlays := by
  have hafter : s.wiring.After name (Overlay.sources overlays) :=
    h.wiring_after (Wiring.after_nil name)
  rw [← Descriptor.hasOpenPort_eq_false_iff, ← Bool.not_eq_true, Descriptor.hasOpenPort_iff]
  exact not_congr hafter.ports_ne_nil_iff

/-- A build ends with the first fault among its overlays, or else with missing ports if the process
takes traffic and the last source opens none for it. -/
theorem build_eq_error_iff_of_faults : build name routable overlays = .error fault ↔
    overlays.findSome? (·.faultFor? name) = some fault ∨
      overlays.findSome? (·.faultFor? name) = none ∧ routable = true ∧
        ¬ Overlay.LastOpens name overlays ∧ fault = .missingPorts name := by
  rw [build_eq_error_iff_of_runs, Overlay.failsWith_iff]
  refine or_congr Iff.rfl ⟨?_, ?_⟩
  · rintro ⟨rfl, hroutable, s, hrun, hclosed⟩
    exact ⟨Overlay.runs_iff.mp ⟨s, hrun⟩, hroutable, (closed_iff_not_lastOpens hrun).mp hclosed, rfl⟩
  · rintro ⟨hnone, hroutable, hports, rfl⟩
    obtain ⟨s, hrun⟩ := (Overlay.runs_iff (d := .blank name routable)).mpr hnone
    exact ⟨rfl, hroutable, s, hrun, (closed_iff_not_lastOpens hrun).mpr hports⟩

end Report

/-! ### Finished descriptors -/

/-- The public port and the probes fit the lists of ports: the public port is the first service port
where both lists have something in them, and nothing is set where one of them is empty. -/
structure Descriptor.PortsCoherent (d : Descriptor) : Prop where
  opened : d.containerPorts ≠ [] → d.servicePorts ≠ [] →
    ∃ first rest, d.servicePorts = first :: rest ∧ d.publicServicePort = some first.number
  closed : d.containerPorts = [] ∨ d.servicePorts = [] →
    d.publicServicePort = none ∧ d.readinessProbe = none ∧ d.livenessProbe = none ∧
      d.startupProbe = none

section Build

variable {name : String} {routable : Bool} {overlays : List Overlay} {d : Descriptor}

theorem wiring_after_of_build (h : build name routable overlays = .ok d) :
    d.wiring.After name (Overlay.sources overlays) := by
  obtain ⟨s, hrun, -, rfl⟩ := build_eq_ok_iff.mp h
  exact hrun.wiring_after (Wiring.after_nil name)

/-- With ports on both sides, the public port is the first service port. -/
theorem publicServicePort_of_open {sources : List PortSource} (h : d.wiring.After name sources)
    (hcontainer : d.containerPorts ≠ []) (hservice : d.servicePorts ≠ []) :
    ∃ first rest, d.servicePorts = first :: rest ∧ d.publicServicePort = some first.number := by
  obtain ⟨last, hlast, hopens⟩ := h.ports_ne_nil_iff.mp ⟨hcontainer, hservice⟩
  have hpublic := (h.opened last (PortSource.lastOpening?_of_getLast? hlast hopens)).1
  have hports : d.servicePorts = last.servicePorts name := by
    have := h.servicePorts
    rwa [hlast] at this
  obtain ⟨first, rest, hcons⟩ := List.exists_cons_of_ne_nil hservice
  refine ⟨first, rest, hcons, ?_⟩
  rw [← hports, hcons] at hpublic
  exact hpublic

/-- **When the public port and the probes fit the ports.** They do in a finished descriptor exactly
if the source that was wired last opens ports for the process, or none of them does. With ports on
both sides the public port is always the first service port; what can be left over, where the last
source opens no ports, is the public port and the probes of an earlier one. -/
theorem portsCoherent_iff (h : build name routable overlays = .ok d) :
    (d.PortsCoherent ↔
      Overlay.LastOpens name overlays ∨
        ∀ source ∈ Overlay.sources overlays, ¬ source.Opens name) ∧
    (d.containerPorts ≠ [] → d.servicePorts ≠ [] →
      ∃ first rest, d.servicePorts = first :: rest ∧ d.publicServicePort = some first.number) := by
  have hafter := wiring_after_of_build h
  refine ⟨⟨fun hd => ?_, fun hcases => ⟨publicServicePort_of_open hafter, fun hclosed => ?_⟩⟩,
    publicServicePort_of_open hafter⟩
  · by_cases hopen : d.containerPorts ≠ [] ∧ d.servicePorts ≠ []
    · exact Or.inl (hafter.ports_ne_nil_iff.mp hopen)
    · have hclosed : d.containerPorts = [] ∨ d.servicePorts = [] := by
        rwa [← Descriptor.hasOpenPort_iff, Bool.not_eq_true,
          Descriptor.hasOpenPort_eq_false_iff] at hopen
      exact Or.inr (hafter.publicServicePort_eq_none_iff.mp (hd.closed hclosed).1)
  · rcases hcases with hlast | hnever
    · have hopen := hafter.ports_ne_nil_iff.mpr hlast
      rcases hclosed with hnil | hnil
      · exact absurd hnil hopen.1
      · exact absurd hnil hopen.2
    · have hunset := hafter.unopened (PortSource.lastOpening?_eq_none_iff.mpr hnever)
      have hprobes : (⟨d.readinessProbe, d.livenessProbe, d.startupProbe⟩ : Probes) = .none :=
        hunset.2
      simp only [Probes.none, Probes.mk.injEq] at hprobes
      exact ⟨hunset.1, hprobes⟩

end Build

/-- Overlays that open the ports of a process, close its service, and open other ports. -/
def Overlay.reopening : List Overlay :=
  [.portsAndProbes (.constant [⟨none, 8080, .tcp⟩] [⟨none, 80, none, .tcp⟩] .none),
    .portsAndProbes (.constant [⟨none, 9090, .tcp⟩] [] .none),
    .portsAndProbes (.constant [⟨none, 3000, .tcp⟩] [⟨none, 443, none, .tcp⟩] .none)]

/-- Ports that are opened again in the end come with a public port that fits. -/
theorem portsCoherent_reopening :
    ∃ d, build "web" true Overlay.reopening = .ok d ∧ d.PortsCoherent := by
  obtain ⟨d, hbuild⟩ : ∃ d, build "web" true Overlay.reopening = .ok d := ⟨_, rfl⟩
  refine ⟨d, hbuild, (portsCoherent_iff hbuild).1.mpr (Or.inl ⟨_, rfl, ?_⟩)⟩
  decide

/-- Overlays that open the ports of a process, with a probe, and close them. -/
def Overlay.closing : List Overlay :=
  [.portsAndProbes (.constant [⟨none, 8080, .tcp⟩] [⟨none, 80, none, .tcp⟩]
      ⟨some ⟨.tcpSocket 8080, none, none, none, none, none⟩, none, none⟩),
    .portsAndProbes (.constant [] [] .none)]

/-- Ports that are closed again leave their public port and their probe behind. -/
theorem exists_stale_public_port :
    ∃ d, build "worker" false Overlay.closing = .ok d ∧ d.containerPorts = [] ∧
      d.servicePorts = [] ∧ d.publicServicePort = some 80 ∧ d.readinessProbe.isSome = true ∧
      ¬ d.PortsCoherent := by
  have hbuild : build "worker" false Overlay.closing
      = .ok ((Descriptor.blank "worker" false).setWiring ⟨[], [], some 80,
        ⟨some ⟨.tcpSocket 8080, none, none, none, none, none⟩, none, none⟩⟩) := rfl
  refine ⟨_, hbuild, rfl, rfl, rfl, rfl, fun h => ?_⟩
  have hpublic : some (80 : UInt16) = none := (h.closed (Or.inl rfl)).1
  exact absurd hpublic (by simp)

end ProcessPlan
