import Mathlib.Data.List.Induction
import ProcessPlan.Proofs.App.Outcome

/-!
# The two sides of declared ports

The declarations that count for a process make up the service ports, one for each, and the container
ports, one for each number that they lead to. Every service port leads to a container port, and every
container port is led to. So ports are open on both sides or on neither, and a process that takes
traffic lacks ports just where nothing is declared and nothing exposed; this is reported unless a
check that comes before has something to report.

## Main definitions

* `firstDeclarations`: the declarations that are the first to lead to their container port
* `PortsMatch`: the two lists of ports that fit declarations

## Main results

* `nodup_numbers_distinctPorts`, `number_mem_distinctPorts_iff`: each number is kept once
* `distinctPorts_map_eq`: what is kept stems from the first declarations
* `DeclaredPorts.matched`: the two sides of every source of declared ports
-/

namespace ProcessPlan

/-! ### Each number once -/

/-- No number is lost. -/
theorem number_mem_distinctPorts_iff (ports : List ContainerPort) (number : UInt16) :
    (∃ port ∈ distinctPorts ports, port.number = number) ↔ ∃ port ∈ ports, port.number = number := by
  induction ports using List.reverseRecOn with
  | nil => exact Iff.rfl
  | append_singleton before last ih =>
    rw [distinctPorts_concat]
    split
    · next hany =>
      rw [List.any_eq_true] at hany
      simp only [decide_eq_true_eq] at hany
      constructor
      · intro h
        obtain ⟨port, hport, hnumber⟩ := ih.mp h
        exact ⟨port, List.mem_append_left _ hport, hnumber⟩
      · rintro ⟨port, hport, rfl⟩
        rcases List.mem_append.mp hport with hport | hport
        · exact ih.mpr ⟨port, hport, rfl⟩
        · rwa [List.mem_singleton.mp hport]
    · simp only [List.mem_append, or_and_right, exists_or, ih]

/-- No number is kept twice. -/
theorem nodup_numbers_distinctPorts (ports : List ContainerPort) :
    ((distinctPorts ports).map (·.number)).Nodup := by
  induction ports using List.reverseRecOn with
  | nil => exact List.nodup_nil
  | append_singleton before last ih =>
    rw [distinctPorts_concat]
    split
    · exact ih
    · next hany =>
      rw [List.map_append, List.nodup_append]
      refine ⟨ih, List.nodup_singleton _, ?_⟩
      simpa using hany

/-! ### The first declarations -/

@[simp] theorem PortDeclaration.number_toContainerPort (d : PortDeclaration) :
    d.toContainerPort.number = d.containerNumber := rfl

/-- The declarations of a list that are the first to lead to their container port, in order. -/
def firstDeclarations (declared : List PortDeclaration) : List PortDeclaration :=
  (declared.zipIdx.filter fun (declaration, i) =>
    !(declared.take i).any (·.containerNumber = declaration.containerNumber)).map (·.1)

/-- A last declaration counts unless an earlier one leads to its container port. -/
theorem firstDeclarations_concat (declared : List PortDeclaration) (last : PortDeclaration) :
    firstDeclarations (declared ++ [last])
      = if declared.any (·.containerNumber = last.containerNumber) then firstDeclarations declared
        else firstDeclarations declared ++ [last] := by
  have hearlier : ∀ entry ∈ declared.zipIdx,
      (!((declared ++ [last]).take entry.2).any (·.containerNumber = entry.1.containerNumber))
        = !(declared.take entry.2).any (·.containerNumber = entry.1.containerNumber) := by
    intro entry hentry
    have hbound : entry.2 < declared.length := by
      simpa using (List.mem_zipIdx hentry).2.1
    rw [List.take_append_of_le_length hbound.le]
  rw [firstDeclarations, List.zipIdx_append, List.filter_append, List.map_append,
    List.filter_congr hearlier, ← firstDeclarations]
  by_cases h : declared.any (·.containerNumber = last.containerNumber) = true
  · simp [h]
  · simp [h]

/-- The distinct container ports of declarations are those of the first declarations. -/
theorem distinctPorts_map_eq (declared : List PortDeclaration) :
    distinctPorts (declared.map (·.toContainerPort))
      = (firstDeclarations declared).map (·.toContainerPort) := by
  induction declared using List.reverseRecOn with
  | nil => rfl
  | append_singleton before last ih =>
    have hseen : (distinctPorts (before.map (·.toContainerPort))).any
          (·.number = last.toContainerPort.number)
        = before.any (·.containerNumber = last.containerNumber) := by
      -- the number has to be unfolded first, since it stands inside a decision too
      show (distinctPorts _).any (·.number = last.containerNumber) = _
      rw [Bool.eq_iff_iff]
      simpa using
        number_mem_distinctPorts_iff (before.map (·.toContainerPort)) last.containerNumber
    rw [List.map_append, List.map_singleton, distinctPorts_concat, hseen,
      firstDeclarations_concat, ih]
    split
    · rfl
    · rw [List.map_append, List.map_singleton]

/-! ### Ports that fit declarations -/

/-- The two lists of ports that fit declarations: a service port for each of them, in order, and a
container port for each of those that are the first to lead to it, in order. -/
structure PortsMatch (declared : List PortDeclaration) (container : List ContainerPort)
    (service : List ServicePort) : Prop where
  /-- Every declaration is published, with its target or else the published number itself. -/
  service_eq : service
    = declared.map fun d => ⟨d.name, d.number, some (d.target.getD d.number), d.protocol⟩
  /-- The first declaration of a container port names it, and says its protocol. -/
  container_eq : container
    = (firstDeclarations declared).map fun d => ⟨d.name, d.target.getD d.number, d.protocol⟩
  /-- No two container ports have one number. -/
  nodup : (container.map (·.number)).Nodup
  /-- Every service port leads to a container port. -/
  leads : ∀ published ∈ service, ∃ port ∈ container, published.target = some port.number
  /-- Every container port is led to. -/
  reached : ∀ port ∈ container, ∃ published ∈ service, published.target = some port.number
  /-- There are ports on both sides, or on neither. -/
  nil_iff : container = [] ↔ service = []

namespace DeclaredPorts

variable {p : DeclaredPorts} {process : String}

/-- The two sides of a source of declared ports fit the declarations that count. -/
theorem portsMatch_source (p : DeclaredPorts) (process : String) :
    PortsMatch (p.declarations process) (p.source.containerPorts process)
      (p.source.servicePorts process) where
  service_eq := rfl
  container_eq := distinctPorts_map_eq _
  nodup := nodup_numbers_distinctPorts _
  leads := by
    intro published hpublished
    obtain ⟨declaration, hdeclaration, rfl⟩ := List.mem_map.mp hpublished
    obtain ⟨port, hport, hnumber⟩ := (number_mem_distinctPorts_iff _ _).mpr
      ⟨_, List.mem_map_of_mem (f := PortDeclaration.toContainerPort) hdeclaration, rfl⟩
    exact ⟨port, hport, congrArg some hnumber.symm⟩
  reached := by
    intro port hport
    obtain ⟨_, hlisted, hnumber⟩ := (number_mem_distinctPorts_iff _ _).mp ⟨port, hport, rfl⟩
    obtain ⟨declaration, hdeclaration, rfl⟩ := List.mem_map.mp hlisted
    exact ⟨_, List.mem_map_of_mem hdeclaration, congrArg some hnumber⟩
  nil_iff := by
    show distinctPorts _ = [] ↔ List.map _ _ = []
    rw [distinctPorts_eq_nil_iff, List.map_eq_nil_iff, List.map_eq_nil_iff]

example : distinctPorts [⟨some "http", 8080, .tcp⟩, ⟨none, 9090, .tcp⟩, ⟨none, 8080, .udp⟩]
    = [⟨some "http", 8080, .tcp⟩, ⟨none, 9090, .tcp⟩] := by decide

end DeclaredPorts

/-! ### Missing ports -/

section Missing

variable {process : String} {routable : Bool} {overlays : List Overlay} {p : DeclaredPorts}
  {s : Descriptor}

/-- A run leaves a side without ports exactly if no declaration counts for the process in the
declared ports that are wired last. -/
theorem closed_iff_bare (hlast : (Overlay.sources overlays).getLast? = some p.source)
    (hrun : Overlay.Runs overlays (.blank process routable) s) :
    s.containerPorts = [] ∨ s.servicePorts = [] ↔ p.Bare process := by
  rw [closed_iff_not_lastOpens hrun]
  simp [Overlay.LastOpens, hlast, DeclaredPorts.opens_source_iff,
    DeclaredPorts.declarations_eq_nil_iff]

/-- A process that takes traffic lacks ports exactly if the source that is wired last declares and
exposes none for it, and no overlay fails; that is, if none fails with the same fault. -/
theorem build_eq_missingPorts_iff
    (hlast : (Overlay.sources overlays).getLast? = some p.source)
    (hsources : ∀ source ∈ Overlay.sources overlays, source.NeverReportsMissing) :
    build process true overlays = .error (.missingPorts process) ↔
      p.Bare process ∧ ∃ s, Overlay.Runs overlays (.blank process true) s := by
  rw [build_eq_error_iff_of_runs]
  constructor
  · rintro (hfails | ⟨-, -, s, hrun, hclosed⟩)
    · exact absurd rfl (hfails.ne_missingPorts hsources process)
    · exact ⟨(closed_iff_bare hlast hrun).mp hclosed, s, hrun⟩
  · rintro ⟨hbare, s, hrun⟩
    exact .inr ⟨rfl, rfl, s, hrun, (closed_iff_bare hlast hrun).mpr hbare⟩

/-- The only source of an application is that of its declared ports. -/
theorem App.neverReportsMissing_overlays (app : App) (spec : ProcessSpec) (version : Version) :
    ∀ source ∈ Overlay.sources (app.overlays spec version), source.NeverReportsMissing := by
  intro source hsource
  rw [App.sources_overlays, List.mem_singleton] at hsource
  exact hsource ▸ app.ports.neverReportsMissing_source

/-- The overlays of a declared process succeed exactly if all conditions but that on its ports
hold. -/
theorem runs_overlays_iff {app : App} {spec : ProcessSpec} {version : Version}
    (h : app.process? process = some spec) (routable : Bool) :
    (∃ s, Overlay.Runs (app.overlays spec version) (.blank process routable) s) ↔
      ∀ condition, condition ≠ BuildCondition.openPorts → condition.Holds app process version := by
  rw [Overlay.runs_iff]
  show (app.overlays spec version).findSome? (·.faultFor? process) = none ↔ _
  rw [App.findSome?_faultFor?_overlays h, List.findSome?_eq_none_iff]
  simp only [BuildCondition.fault?_eq_none_iff]
  constructor
  · intro hall condition hother
    cases condition with
    | declared => exact ⟨spec, h⟩
    | openPorts => exact absurd rfl hother
    | validItems kind => cases kind <;> exact hall _ (by decide)
    | _ => exact hall _ (by decide)
  · intro hall condition hmem
    exact hall condition (by rintro rfl; exact absurd hmem (by decide))

end Missing

/-- **The two sides of declared ports.** The declarations that count for a process are its own, or
else one for each exposed port; the two lists of ports fit them. In a build of a process that takes
traffic, whose last source they are, ports are reported missing exactly if nothing is declared for
the process and nothing exposed, and no overlay fails, as long as no source reports the same of
itself; the overlays of an application fail exactly where a condition other than that on ports does
not hold. Without anything declared or exposed, no such build succeeds. -/
theorem DeclaredPorts.matched (p : DeclaredPorts) (process : String) :
    p.declarations process
      = (if (p.processes.find? process).getD [] = [] then
          p.exposed.map fun number => ⟨none, .tcp, number, some number⟩
        else (p.processes.find? process).getD []) ∧
    PortsMatch (p.declarations process) (p.source.containerPorts process)
      (p.source.servicePorts process) ∧
    (∀ overlays, (Overlay.sources overlays).getLast? = some p.source →
      ((∀ source ∈ Overlay.sources overlays, source.NeverReportsMissing) →
        (build process true overlays = .error (.missingPorts process) ↔
          p.Bare process ∧ ∃ s, Overlay.Runs overlays (.blank process true) s)) ∧
      (p.Bare process → ∀ d, build process true overlays ≠ .ok d)) ∧
    ∀ (app : App) (version : Option Version) (spec : ProcessSpec), app.ports = p →
      app.process? process = some spec → spec.routable = true →
      (app.buildProcess process version = .error (.missingPorts process) ↔
        p.Bare process ∧ ∀ condition, condition ≠ BuildCondition.openPorts →
          condition.Holds app process (version.getD app.version)) := by
  refine ⟨p.declarations_eq process, p.portsMatch_source process,
    fun overlays hlast => ⟨build_eq_missingPorts_iff hlast, fun hbare d hbuild => ?_⟩,
    fun app version spec hports hspec hroutable => ?_⟩
  · obtain ⟨s, hrun, hports, -⟩ := build_eq_ok_iff.mp hbuild
    have hopen := Descriptor.hasOpenPort_iff.mp (hports hrun.builtFor.routable)
    rcases (closed_iff_bare hlast hrun).mpr hbare with hnil | hnil
    · exact hopen.1 hnil
    · exact hopen.2 hnil
  · subst hports
    rw [App.buildProcess_of_some hspec, hroutable,
      build_eq_missingPorts_iff rfl (app.neverReportsMissing_overlays spec _),
      runs_overlays_iff hspec]

/-! ### Two applications without ports -/

namespace App

/-- An application whose only process takes traffic and has no port. -/
def portless : App := { blank "shop" with processes := [.blank "web" true] }

/-- Its ports are reported missing. -/
theorem buildProcess_portless :
    portless.buildProcess "web" none = .error (.missingPorts "web") := by
  obtain ⟨-, -, -, hall⟩ := DeclaredPorts.matched portless.ports "web"
  refine (hall portless none (.blank "web" true) rfl rfl rfl).mpr ⟨by decide, fun condition h => ?_⟩
  rw [← BuildCondition.fault?_eq_none_iff]
  cases condition with
  | openPorts => exact absurd rfl h
  | validItems kind => cases kind <;> decide +kernel
  | _ => decide +kernel

/-- The same application with a label whose key is not allowed. -/
def portlessMislabelled : App :=
  { portless with labels := [⟨.pod, none, none, .ofList [("bad key", "a")]⟩] }

/-- The label is reported, and not the missing ports. -/
theorem buildProcess_portlessMislabelled :
    portlessMislabelled.process? "web" = some (.blank "web" true) ∧
    portlessMislabelled.buildProcess "web" none = .error (.badItem (.badName "bad key")) ∧
    portlessMislabelled.ports.Bare "web" ∧
    ¬ (portlessMislabelled.buildProcess "web" none = .error (.missingPorts "web") ↔
      portlessMislabelled.ports.Bare "web") := by
  have hbuild : portlessMislabelled.buildProcess "web" none
      = .error (.badItem (.badName "bad key")) := by decide +kernel
  have hbare : portlessMislabelled.ports.Bare "web" := by decide
  refine ⟨rfl, hbuild, hbare, fun h => ?_⟩
  rw [h.mpr hbare] at hbuild
  exact absurd hbuild (by decide)

end App

end ProcessPlan
