import ProcessPlan.Proofs.Data.Yaml.Implicit
import ProcessPlan.Proofs.Overlay.PublicPort

/-!
# The environment of a finished descriptor

A finished descriptor has the variables that the last overlay of an environment sets, and after
them the variables derived from its container ports. A name is looked up from the end, so a derived
variable counts whatever the process says itself, and a name that is not derived keeps the value
that the process gave it. The variable that holds all ports can be read back.

## Main definitions

* `Overlay.environment?`, `Overlay.lastEnvironment`: the variables that overlays set
* `readPortNumbers`: numbers in decimal with commas between them

## Main results

* `Overlay.environment_apply`, `Overlay.Runs.environment_eq`: one overlay, and a run
* `readPortNumbers_portNumbers`: the numbers of ports are read back as they were written
* `environment_of_build`: what a finished descriptor gives each name
-/

namespace ProcessPlan

/-! ### Looking up a name -/

namespace EnvVar

variable {environment more : List EnvVar} {name : String}

/-- Of two environments in a row, the second one counts if it gives the name a value. -/
theorem resolve_append (environment more : List EnvVar) (name : String) :
    resolve (environment ++ more) name = (resolve more name).or (resolve environment name) := by
  simp only [resolve, List.findRev?_eq_find?_reverse, List.reverse_append, List.find?_append,
    Option.map_or]

theorem resolve_concat (environment : List EnvVar) (last : EnvVar) (name : String) :
    resolve (environment ++ [last]) name
      = if last.name = name then some last.value else resolve environment name := by
  rw [resolve_append]
  by_cases h : last.name = name <;> simp [resolve, h]

theorem resolve_eq_none_iff :
    resolve environment name = none ↔ ∀ var ∈ environment, var.name ≠ name := by
  simp [resolve, List.findRev?_eq_find?_reverse]

/-- An environment that does not have a name hides nothing that stands before it. -/
theorem resolve_append_of_forall_ne (h : ∀ var ∈ more, var.name ≠ name) :
    resolve (environment ++ more) name = resolve environment name := by
  rw [resolve_append, resolve_eq_none_iff.mpr h, Option.none_or]

end EnvVar

/-! ### The derived variables -/

section Derived

variable {process : String} {ports : List ContainerPort}

/-- No process has a name that makes the variable of all its ports one of the other two. -/
theorem portVariable_ne (process : String) :
    "PORT_" ++ process ≠ "port" ∧ "PORT_" ++ process ≠ "PORT" := by
  simp [← String.toList_inj]

/-- The variable of all ports is the last one. -/
theorem exists_portVariables_eq_concat (process : String) (hne : ports ≠ []) :
    ∃ before, portVariables process ports
      = before ++ [⟨"PORT_" ++ process, portNumbers ports⟩] := by
  match ports with
  | [] => exact absurd rfl hne
  | [port] => exact ⟨[_, _], rfl⟩
  | _ :: _ :: _ => exact ⟨[], rfl⟩

/-- The names of the derived variables: that of all ports if there is any, and the two others if
there is exactly one. -/
theorem name_of_mem_portVariables {var : EnvVar} (h : var ∈ portVariables process ports) :
    ports ≠ [] ∧ var.name = "PORT_" ++ process ∨
      ports.length = 1 ∧ (var.name = "port" ∨ var.name = "PORT") := by
  match ports with
  | [] => exact absurd h List.not_mem_nil
  | [port] =>
    obtain rfl | rfl | rfl : var = ⟨"port", toString port.number.toNat⟩ ∨
        var = ⟨"PORT", toString port.number.toNat⟩ ∨
        var = ⟨"PORT_" ++ process, portNumbers [port]⟩ := by
      simpa [portVariables] using h
    · exact .inr ⟨rfl, .inl rfl⟩
    · exact .inr ⟨rfl, .inr rfl⟩
    · exact .inl ⟨List.cons_ne_nil _ _, rfl⟩
  | _ :: _ :: _ =>
    rw [List.mem_singleton.mp h]
    exact .inl ⟨List.cons_ne_nil _ _, rfl⟩

/-- Only a single port is there under the two names without the process. -/
theorem forall_portVariables_ne (hlength : ports.length ≠ 1) {name : String}
    (hname : name = "port" ∨ name = "PORT") :
    ∀ var ∈ portVariables process ports, var.name ≠ name := by
  intro var hvar
  rcases name_of_mem_portVariables hvar with ⟨-, hvar⟩ | ⟨hone, -⟩
  · rw [hvar]
    rcases hname with rfl | rfl
    · exact (portVariable_ne process).1
    · exact (portVariable_ne process).2
  · exact absurd hone hlength

/-- No other name is derived. -/
theorem forall_portVariables_ne_of_other {name : String} (hport : name ≠ "port")
    (hPORT : name ≠ "PORT") (hall : name = "PORT_" ++ process → ports = []) :
    ∀ var ∈ portVariables process ports, var.name ≠ name := by
  rintro var hvar rfl
  rcases name_of_mem_portVariables hvar with ⟨hne, hvar⟩ | ⟨-, hvar | hvar⟩
  · exact hne (hall hvar)
  · exact hport hvar
  · exact hPORT hvar

/-! ### Reading the numbers back -/

/-- The numbers of a text in decimal with commas between them. -/
def readPortNumbers (s : String) : Option (List Nat) :=
  (Text.pieces ',' s.toList).mapM (Digits.read? 10)

theorem mapM_read?_toDigits (numbers : List Nat) :
    (numbers.map (Nat.toDigits 10)).mapM (Digits.read? 10) = some numbers := by
  induction numbers with
  | nil => rfl
  | cons n rest ih => simp [Digits.read?_toDigits, ih]

theorem comma_not_mem_toDigits (n : Nat) : ',' ∉ Nat.toDigits 10 n := fun h =>
  absurd (Json.isDigit_of_mem_toDigits h) (by decide)

/-- The numbers of ports are read back as they were written. -/
theorem readPortNumbers_portNumbers (hne : ports ≠ []) :
    readPortNumbers (portNumbers ports) = some (ports.map (·.number.toNat)) := by
  have hpieces : Text.pieces ',' (portNumbers ports).toList
      = (ports.map (·.number.toNat)).map (Nat.toDigits 10) := by
    rw [portNumbers, Text.pieces_join rfl (by simpa using hne)]
    · simp [Function.comp_def]
    · simp [comma_not_mem_toDigits]
  rw [readPortNumbers, hpieces, mapM_read?_toDigits]

example : portNumbers [⟨none, 80, .tcp⟩, ⟨none, 8443, .udp⟩] = "80,8443" := by decide +kernel

end Derived

/-! ### Overlays -/

namespace Overlay

variable {overlays : List Overlay} {d s : Descriptor}

/-- The variables that an overlay sets, if it is of that kind. -/
def environment? : Overlay → Option (List EnvVar)
  | environment vars => some vars
  | _ => none

/-- The variables that the last overlay of an environment sets, and none without such an overlay. -/
def lastEnvironment (overlays : List Overlay) : List EnvVar :=
  (overlays.filterMap environment?).getLast?.getD []

/-- An overlay of an environment replaces the variables, and any other one leaves them alone. -/
theorem environment_apply (overlay : Overlay) (d : Descriptor) :
    (overlay.apply d).state.environment = overlay.environment?.getD d.environment := by
  cases overlay with
  | portsAndProbes source =>
    have hrest := congrArg Descriptor.environment (withoutWiring_wirePorts source d)
    exact hrest
  | metadata kind items version =>
    have hrest := congrArg Descriptor.environment (d.withoutMetadata_applyItems kind version items)
    exact hrest
  | units count =>
    rw [state_apply_units]
    rfl
  | _ => rfl

/-- A run leaves the variables of its last overlay of an environment. -/
theorem Runs.environment_eq (h : Runs overlays d s) :
    s.environment = (overlays.filterMap environment?).getLast?.getD d.environment := by
  induction h with
  | done d => rfl
  | @step overlay rest d d' s hfirst _ ih =>
    have hstep := environment_apply overlay d
    rw [hfirst] at hstep
    rw [ih, show d'.environment = _ from hstep]
    cases henv : overlay.environment? with
    | none => rw [List.filterMap_cons_none henv, Option.getD_none]
    | some vars => rw [List.filterMap_cons_some henv, List.getLast?_cons, Option.getD_some,
        Option.getD_some]

end Overlay

/-! ### Finished descriptors -/

section Build

variable {name : String} {routable : Bool} {overlays : List Overlay} {d : Descriptor}

theorem environment_eq_append_of_build (h : build name routable overlays = .ok d) :
    d.environment = Overlay.lastEnvironment overlays ++ portVariables name d.containerPorts := by
  obtain ⟨s, hrun, -, rfl⟩ := build_eq_ok_iff.mp h
  show s.environment ++ portVariables s.name s.containerPorts = _
  rw [hrun.environment_eq, hrun.builtFor.name]
  rfl

/-- **What a finished descriptor gives each name.** Its environment is that of the last overlay of
an environment, followed by the variables derived from its ports, which are those of the last
source. A single port is there under the names `port` and `PORT`, and with several or none the two
names have the values that the process gives them itself. The variable of all ports can be read
back, and every other name has the value that the process gives it itself. -/
theorem environment_of_build (h : build name routable overlays = .ok d) :
    d.environment = Overlay.lastEnvironment overlays ++ portVariables name d.containerPorts ∧
    d.containerPorts
      = ((Overlay.sources overlays).getLast?.map (·.containerPorts name)).getD [] ∧
    (∀ port, d.containerPorts = [port] →
      d.env? "port" = some (toString port.number.toNat) ∧
      d.env? "PORT" = some (toString port.number.toNat)) ∧
    (d.containerPorts.length ≠ 1 →
      d.env? "port" = EnvVar.resolve (Overlay.lastEnvironment overlays) "port" ∧
      d.env? "PORT" = EnvVar.resolve (Overlay.lastEnvironment overlays) "PORT") ∧
    (d.containerPorts ≠ [] → ∃ value, d.env? ("PORT_" ++ name) = some value ∧
      readPortNumbers value = some (d.containerPorts.map (·.number.toNat))) ∧
    ∀ other, other ≠ "port" → other ≠ "PORT" →
      (other = "PORT_" ++ name → d.containerPorts = []) →
      d.env? other = EnvVar.resolve (Overlay.lastEnvironment overlays) other := by
  have henv := environment_eq_append_of_build h
  have hports := (wiring_after_of_build h).containerPorts
  have hother : ∀ {other}, (∀ var ∈ portVariables name d.containerPorts, var.name ≠ other) →
      d.env? other = EnvVar.resolve (Overlay.lastEnvironment overlays) other := by
    intro other hne
    rw [Descriptor.env?, henv, EnvVar.resolve_append_of_forall_ne hne]
  refine ⟨henv, hports, fun port hport => ?single, fun hlength => ?several, fun hne => ?all,
    fun other hport hPORT hall => hother (forall_portVariables_ne_of_other hport hPORT hall)⟩
  case single =>
    have hnames := portVariable_ne name
    rw [Descriptor.env?, Descriptor.env?, henv, hport, EnvVar.resolve_append,
      EnvVar.resolve_append]
    simp [portVariables, EnvVar.resolve, hnames.1, hnames.2]
  case several =>
    exact ⟨hother (forall_portVariables_ne hlength (.inl rfl)),
      hother (forall_portVariables_ne hlength (.inr rfl))⟩
  case all =>
    obtain ⟨before, hderived⟩ := exists_portVariables_eq_concat name hne
    refine ⟨portNumbers d.containerPorts, ?_, readPortNumbers_portNumbers hne⟩
    rw [Descriptor.env?, henv, hderived, ← List.append_assoc, EnvVar.resolve_concat, if_pos rfl]

/-- Overlays that set variables twice, around two sources of ports, one of them set as well by the
process itself. -/
def Overlay.competing : List Overlay :=
  [.environment [⟨"LEVEL", "debug"⟩],
    .portsAndProbes (.constant [⟨none, 3000, .tcp⟩] [⟨none, 80, none, .tcp⟩] .none),
    .environment [⟨"PORT", "5000"⟩, ⟨"PORT_web", "5000"⟩],
    .portsAndProbes (.constant [⟨none, 8080, .tcp⟩, ⟨none, 9090, .tcp⟩]
      [⟨none, 80, none, .tcp⟩] .none)]

/-- With two ports, the process keeps its own `PORT` but not its own `PORT_web`. -/
theorem environment_competing :
    ∃ d, build "web" true Overlay.competing = .ok d ∧ d.env? "LEVEL" = none ∧
      d.env? "PORT" = some "5000" ∧
      ∃ value, d.env? "PORT_web" = some value ∧ readPortNumbers value = some [8080, 9090] := by
  obtain ⟨d, hbuild⟩ : ∃ d, build "web" true Overlay.competing = .ok d := ⟨_, rfl⟩
  obtain ⟨-, hports, -, hseveral, hall, hother⟩ := environment_of_build hbuild
  replace hports : d.containerPorts = [⟨none, 8080, .tcp⟩, ⟨none, 9090, .tcp⟩] := hports
  rw [hports] at hseveral hall
  refine ⟨d, hbuild, ?_, ?_, hall (by simp)⟩
  · have hlevel : "LEVEL" ≠ "PORT_" ++ "web" := by decide
    exact (hother "LEVEL" (by decide) (by decide) fun h => absurd h hlevel).trans (by decide)
  · exact (hseveral (by simp)).2.trans (by decide)

end Build

end ProcessPlan
