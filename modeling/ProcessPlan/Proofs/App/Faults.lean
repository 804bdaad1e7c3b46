import ProcessPlan.Proofs.App.BuildAll
import ProcessPlan.Proofs.Config.Specs

/-!
# What can go wrong after reading

A configuration that has been read leaves a build four ways to fail: nobody declares the process, it
has ports and the probes are ill-formed, an item in scope is invalid, or it takes traffic and has no
ports. Each condition of a build is reported by a fault of its own; that of positive units is
settled by reading, and all other faults of the program are those of files and texts. A process is
unknown exactly where the text has no process node of its name, so it never is where all declared
processes are built.

## Main definitions

* `BuildCondition.Reports`: the faults by which a condition is reported

## Main results

* `App.units_of_ofText`: no process of a configuration is declared with zero units
* `App.buildProcess_eq_unknownProcess_iff`: when a process is unknown
* `App.buildProcess_of_ofText`: the outcomes of a build after reading
-/

namespace ProcessPlan

namespace BuildCondition

/-- The faults by which it is reported that a condition does not hold for a process. -/
def Reports (name : String) (fault : Fault) : BuildCondition → Prop
  | declared => fault = .unknownProcess name
  | positiveUnits => fault = .badConfig (.noUnits name)
  | soundProbes => ∃ portFault, fault = .badPorts portFault
  | validItems _ => ∃ itemFault, fault = .badItem itemFault
  | openPorts => fault = .missingPorts name

variable {app : App} {name : String} {version : Version} {condition : BuildCondition}
  {fault : Fault}

theorem reports_of_fault? (h : condition.fault? app name version = some fault) :
    condition.Reports name fault := by
  cases condition with
  | soundProbes =>
    obtain ⟨-, hprobes⟩ := Option.ite_none_left_eq_some.1 h
    obtain ⟨_, -, rfl⟩ := Option.map_eq_some_iff.1 hprobes
    exact ⟨_, rfl⟩
  | validItems kind =>
    obtain ⟨_, -, rfl⟩ := Option.map_eq_some_iff.1 h
    exact ⟨_, rfl⟩
  | _ => exact (Option.some.inj (Option.ite_none_right_eq_some.1 h).2).symm

end BuildCondition

namespace App

open Kdl (Document)
open Config

variable {standIn text name : String} {app : App} {version : Option Version} {fault : Fault}

/-- What a build reports, it reports of a condition that does not hold. -/
theorem reports_of_buildProcess (h : app.buildProcess name version = .error fault) :
    ∃ condition : BuildCondition, condition.Reports name fault ∧
      ¬ condition.Holds app name (version.getD app.version) := by
  rw [buildProcess_eq_error_iff] at h
  obtain ⟨condition, -, hfault⟩ := List.exists_of_findSome?_eq_some h
  refine ⟨condition, BuildCondition.reports_of_fault? hfault, fun hholds => ?_⟩
  rw [BuildCondition.fault?_eq_none_iff.2 hholds] at hfault
  cases hfault

/-- A process is unknown exactly if there is none of its name. -/
theorem buildProcess_eq_unknownProcess_iff {unknown : String} :
    app.buildProcess name version = .error (.unknownProcess unknown) ↔
      unknown = name ∧ app.process? name = none := by
  constructor
  · intro h
    obtain ⟨condition, hreports, hfails⟩ := reports_of_buildProcess h
    cases condition with
    | declared =>
      refine ⟨Fault.unknownProcess.inj hreports, Option.eq_none_iff_forall_ne_some.2 ?_⟩
      exact fun spec hspec => hfails ⟨spec, hspec⟩
    | soundProbes | validItems kind =>
      obtain ⟨_, hfault⟩ := hreports
      cases hfault
    | _ => cases hreports
  · rintro ⟨rfl, hnone⟩
    exact buildProcess_of_none hnone version

/-- Where no process has zero units, a build fails in one of four ways. -/
theorem fault_of_buildProcess (hunits : ∀ spec ∈ app.processes, spec.units ≠ some 0)
    (h : app.buildProcess name version = .error fault) :
    fault = .unknownProcess name ∨ (∃ portFault, fault = .badPorts portFault) ∨
      (∃ itemFault, fault = .badItem itemFault) ∨ fault = .missingPorts name := by
  obtain ⟨condition, hreports, hfails⟩ := reports_of_buildProcess h
  cases condition with
  | declared => exact .inl hreports
  | positiveUnits =>
    exact absurd (fun spec hspec => hunits spec (List.mem_of_find?_eq_some hspec)) hfails
  | soundProbes => exact .inr (.inl hreports)
  | validItems kind => exact .inr (.inr (.inl hreports))
  | openPorts => exact .inr (.inr (.inr hreports))

/-- No process of a configuration is declared with zero units. -/
theorem units_of_ofText (h : ofText standIn text = .ok app) :
    ∀ spec ∈ app.processes, spec.units ≠ some 0 := by
  intro spec hspec
  obtain ⟨document, -, hdocument⟩ := exists_document_of_ofText h
  obtain ⟨node, -, -, hread⟩ := (mem_processes_iff hdocument).1 hspec
  exact units_of_readProcess hread

/-- **After reading, a build fails for reasons of a build.** Of a text that declares an application,
no process has zero units. A process is built, or it is unknown, or its probes, an item or its
missing ports are at fault; it is unknown exactly if the text has no process node of its name; and
none is when all declared processes are built. -/
theorem buildProcess_of_ofText (h : ofText standIn text = .ok app) :
    (∀ spec ∈ app.processes, spec.units ≠ some 0) ∧
    (∀ (name : String) (version : Option Version),
      (∃ d, app.buildProcess name version = .ok d) ∨
      app.buildProcess name version = .error (.unknownProcess name) ∨
      (∃ portFault, app.buildProcess name version = .error (.badPorts portFault)) ∨
      (∃ itemFault, app.buildProcess name version = .error (.badItem itemFault)) ∨
      app.buildProcess name version = .error (.missingPorts name)) ∧
    (∃ document, Document.ofText? text = some document ∧
      ∀ (name : String) (version : Option Version),
        (∃ unknown, app.buildProcess name version = .error (.unknownProcess unknown)) ↔
          ¬ Declares document name) ∧
    ∀ (version : Option Version), ∀ result ∈ app.buildAll version, ∀ unknown,
      result.2 ≠ .error (.unknownProcess unknown) := by
  obtain ⟨document, htext, hdocument⟩ := exists_document_of_ofText h
  have hunits := units_of_ofText h
  refine ⟨hunits, fun name version => ?_, ⟨document, htext, fun name version => ?_⟩, ?_⟩
  · cases hbuild : app.buildProcess name version with
    | ok d => exact .inl ⟨d, rfl⟩
    | error fault =>
      rcases fault_of_buildProcess hunits hbuild with rfl | ⟨_, rfl⟩ | ⟨_, rfl⟩ | rfl
      · exact .inr (.inl rfl)
      · exact .inr (.inr (.inl ⟨_, rfl⟩))
      · exact .inr (.inr (.inr (.inl ⟨_, rfl⟩)))
      · exact .inr (.inr (.inr (.inr rfl)))
  · simp only [buildProcess_eq_unknownProcess_iff, exists_eq_left,
      process?_eq_none_iff hdocument]
  · intro version result hmem unknown hunknown
    obtain ⟨spec, hspec, rfl⟩ := List.mem_map.1 hmem
    obtain ⟨-, hnone⟩ := buildProcess_eq_unknownProcess_iff.1 hunknown
    exact absurd (List.find?_eq_none.1 hnone spec hspec) (by simp)

/-- A configuration of which only the last process can be built. -/
def troubledText : String :=
  "process api \x7b instances; units 2 \x7d; process web routable=#true\n" ++
  "process job; process cron\n" ++
  "ports \x7b process api \x7b port 80 \x7d \x7d\n" ++
  "healthcheck \x7b liveness \x7b tcp-socket \x7d \x7d\n" ++
  "labels \x7b item target=pod process=job \x7b \"no key\" a \x7d \x7d"

/-- The application of that configuration. -/
def troubled : App where
  name := "shop"
  version := firstVersion
  processes := [{ ProcessSpec.blank "api" false with units := some 2 }, .blank "web" true,
    .blank "job" false, .blank "cron" false]
  ports :=
    { processes := .ofList [("api", [⟨none, .tcp, 80, none⟩])]
      exposed := []
      healthcheck := ⟨none, some ⟨.tcpSocket 0, none, none, none, none, none⟩, none⟩ }
  labels := [⟨.pod, some "job", none, .ofList [("no key", "a")]⟩]
  annotations := []

/-- One build for each of the outcomes, at version 0, and a process that the text does not have. -/
theorem buildProcess_troubled :
    ofText "shop" troubledText = .ok troubled ∧
    (∀ spec ∈ troubled.processes, spec.units ≠ some 0) ∧
    troubled.buildProcess "api" (some 0) = .error (.badPorts (.badProbe "liveness" .tcpPortZero)) ∧
    troubled.buildProcess "web" (some 0) = .error (.missingPorts "web") ∧
    troubled.buildProcess "job" (some 0) = .error (.badItem (.badName "no key")) ∧
    (troubled.buildProcess "cron" (some 0)).isOk ∧
    (∃ document, Document.ofText? troubledText = some document ∧ ¬ Declares document "mail") ∧
    ∀ result ∈ troubled.buildAll (some 0), ∀ unknown,
      result.2 ≠ .error (.unknownProcess unknown) := by
  have htext : ofText "shop" troubledText = .ok troubled := by decide +kernel
  obtain ⟨hunits, -, ⟨document, hdocument, hunknown⟩, hall⟩ := buildProcess_of_ofText htext
  exact ⟨htext, hunits, by decide +kernel, by decide +kernel, by decide +kernel, by decide +kernel,
    ⟨document, hdocument, (hunknown "mail" none).1 ⟨"mail", by decide +kernel⟩⟩, hall (some 0)⟩

end App

end ProcessPlan
