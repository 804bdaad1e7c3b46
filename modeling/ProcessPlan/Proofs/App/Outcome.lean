import ProcessPlan.App
import ProcessPlan.Proofs.Overlay.PublicPort
import ProcessPlan.Proofs.Ports.Declared
import ProcessPlan.Proofs.WellFormed

/-!
# When a declared process can be built

Six conditions decide whether a process of an application can be built at a version. Each of them
looks at the declarations alone, and each comes with the fault that is reported where it does not
hold. A build succeeds exactly if all six hold, and it fails with the fault of the first one, in the
order of `BuildCondition.inOrder`, that does not.

## Main definitions

* `BuildCondition`, `BuildCondition.inOrder`: the conditions, and their order
* `BuildCondition.Holds`, `BuildCondition.fault?`: what they say, and what is reported

## Main results

* `BuildCondition.fault?_eq_none_iff`: nothing is reported exactly where a condition holds
* `App.buildProcess_outcome`: the outcome of every build
-/

namespace ProcessPlan

/-- What it takes for a process to be built. -/
inductive BuildCondition where
  /-- A process of the name is declared. -/
  | declared
  /-- It is not declared with zero units. -/
  | positiveUnits
  /-- If it has ports, the probes are well formed. -/
  | soundProbes
  /-- The items of a kind that are in scope are valid. -/
  | validItems (kind : MetadataKind)
  /-- If it takes traffic, it has ports. -/
  | openPorts
deriving DecidableEq

/-- The items of an application that hold metadata of a kind. -/
def App.items (app : App) : MetadataKind → List MetadataItem
  | .labels => app.labels
  | .annotations => app.annotations

namespace BuildCondition

/-- The order in which the conditions are checked. -/
def inOrder : List BuildCondition :=
  [declared, positiveUnits, soundProbes, validItems .labels, validItems .annotations, openPorts]

theorem mem_inOrder (condition : BuildCondition) : condition ∈ inOrder := by
  rcases condition with _ | _ | _ | (_ | _) | _ <;> decide

/-- What a condition says of the declarations for a process at a version. The process is the first
of the name; it has ports if it has declarations of its own, or else if ports are exposed. -/
def Holds (app : App) (name : String) (version : Version) : BuildCondition → Prop
  | declared => ∃ spec, app.processes.find? (·.name = name) = some spec
  | positiveUnits =>
    ∀ spec, app.processes.find? (·.name = name) = some spec → spec.units ≠ some 0
  | soundProbes =>
    (app.ports.processes.find? name).getD [] ≠ [] ∨ app.ports.exposed ≠ [] →
      app.ports.healthcheck.WellFormed
  | validItems kind => ∀ item ∈ app.items kind, item.InScope name version → item.Valid kind
  | openPorts =>
    ∀ spec, app.processes.find? (·.name = name) = some spec → spec.routable = true →
      (app.ports.processes.find? name).getD [] ≠ [] ∨ app.ports.exposed ≠ []

/-- What is reported where a condition does not hold. -/
def fault? (app : App) (name : String) (version : Version) : BuildCondition → Option Fault
  | declared => if (app.process? name).isNone then some (.unknownProcess name) else none
  | positiveUnits =>
    if (app.process? name).any (·.units = some 0) then some (.badConfig (.noUnits name)) else none
  | soundProbes =>
    if app.ports.declarations name = [] then none
    else app.ports.healthcheck.fault?.map fun (kind, fault) => .badPorts (.badProbe kind fault)
  | validItems kind =>
    (((app.items kind).filter (·.InScope name version)).findSome? (·.fault? kind)).map .badItem
  | openPorts =>
    if (app.process? name).any (·.routable) ∧ app.ports.declarations name = [] then
      some (.missingPorts name)
    else none

variable {app : App} {name : String} {version : Version}

theorem fault?_soundProbes_eq_none_iff :
    soundProbes.fault? app name version = none ↔ soundProbes.Holds app name version := by
  rw [fault?, Holds, ← Probes.fault?_eq_none_iff, ← DeclaredPorts.declarations_ne_nil_iff]
  by_cases h : app.ports.declarations name = [] <;> simp [h]

theorem fault?_validItems_eq_none_iff {kind : MetadataKind} :
    (validItems kind).fault? app name version = none ↔
      (validItems kind).Holds app name version := by
  rw [fault?, Holds, Option.map_eq_none_iff, List.findSome?_eq_none_iff]
  simp only [List.mem_filter, decide_eq_true_eq, MetadataItem.fault?_eq_none_iff, and_imp]

theorem fault?_openPorts_eq_none_iff :
    openPorts.fault? app name version = none ↔ openPorts.Holds app name version := by
  rw [fault?, Holds, ← App.process?, ← DeclaredPorts.declarations_ne_nil_iff]
  cases h : app.process? name <;> simp

/-- Nothing is reported exactly where a condition holds. -/
theorem fault?_eq_none_iff {condition : BuildCondition} :
    condition.fault? app name version = none ↔ condition.Holds app name version := by
  cases condition with
  | declared => rw [fault?, Holds, ← App.process?]; cases h : app.process? name <;> simp
  | positiveUnits => rw [fault?, Holds, ← App.process?]; cases h : app.process? name <;> simp
  | soundProbes => exact fault?_soundProbes_eq_none_iff
  | validItems kind => exact fault?_validItems_eq_none_iff
  | openPorts => exact fault?_openPorts_eq_none_iff

end BuildCondition

namespace App

variable {app : App} {name : String} {version : Version} {spec : ProcessSpec} {fault : Fault}

/-! ### The overlays of a declared process -/

theorem name_of_process? (h : app.process? name = some spec) : spec.name = name := by
  simpa using List.find?_some h

theorem sources_overlays (app : App) (spec : ProcessSpec) (version : Version) :
    Overlay.sources (app.overlays spec version) = [app.ports.source] := rfl

theorem lastOpens_overlays_iff : Overlay.LastOpens name (app.overlays spec version) ↔
    app.ports.declarations name ≠ [] := by
  rw [Overlay.LastOpens, sources_overlays, ← DeclaredPorts.opens_source_iff]
  simp

/-- The conditions that the overlays of a process check, in their order. -/
theorem findSome?_faultFor?_overlays (h : app.process? name = some spec) (version : Version) :
    (app.overlays spec version).findSome? (·.faultFor? name)
      = [BuildCondition.positiveUnits, .soundProbes, .validItems .labels,
          .validItems .annotations].findSome? (·.fault? app name version) := by
  have hunits : (Overlay.units spec.units).faultFor? name
      = BuildCondition.positiveUnits.fault? app name version := by
    simp [Overlay.faultFor?, BuildCondition.fault?, h]
  have hports : (Overlay.portsAndProbes app.ports.source).faultFor? name
      = BuildCondition.soundProbes.fault? app name version := by
    rw [Overlay.faultFor?, BuildCondition.fault?, DeclaredPorts.fault?_source]
    by_cases hnil : app.ports.declarations name = []
    · rw [if_pos hnil, if_neg (by simpa [DeclaredPorts.opens_source_iff] using hnil)]
    · rw [if_neg hnil, if_pos (DeclaredPorts.opens_source_iff.mpr hnil)]
  simp only [overlays, List.findSome?_cons, ← hunits, ← hports]
  -- the overlays in between have no fault, and the items are read in the same way on both sides
  rfl

/-! ### The outcome -/

theorem buildProcess_of_none (h : app.process? name = none) (version : Option Version) :
    app.buildProcess name version = .error (.unknownProcess name) := by
  rw [buildProcess, h]

theorem buildProcess_of_some (h : app.process? name = some spec) (version : Option Version) :
    app.buildProcess name version
      = build name spec.routable (app.overlays spec (version.getD app.version)) := by
  rw [buildProcess, h, ← name_of_process? h]
  rfl

theorem openPorts_fault?_eq_some_iff (h : app.process? name = some spec) :
    BuildCondition.openPorts.fault? app name version = some fault ↔
      spec.routable = true ∧ ¬ Overlay.LastOpens name (app.overlays spec version) ∧
        fault = .missingPorts name := by
  rw [lastOpens_overlays_iff, BuildCondition.fault?, h]
  by_cases hroutable : spec.routable = true <;>
    by_cases hnil : app.ports.declarations name = [] <;> simp [hroutable, hnil, eq_comm]

/-- A build fails exactly with what is reported for the first condition that reports anything. -/
theorem buildProcess_eq_error_iff (app : App) (name : String) (version : Option Version)
    (fault : Fault) : app.buildProcess name version = .error fault ↔
      BuildCondition.inOrder.findSome? (·.fault? app name (version.getD app.version))
        = some fault := by
  rcases h : app.process? name with _ | spec
  · rw [buildProcess_of_none h]
    simp [BuildCondition.inOrder, BuildCondition.fault?, h]
  · have hdeclared : BuildCondition.declared.fault? app name (version.getD app.version) = none :=
      BuildCondition.fault?_eq_none_iff.mpr ⟨spec, h⟩
    have hsplit : BuildCondition.inOrder = [BuildCondition.declared] ++
        [.positiveUnits, .soundProbes, .validItems .labels, .validItems .annotations] ++
        [.openPorts] := rfl
    rw [buildProcess_of_some h, build_eq_error_iff_of_faults, findSome?_faultFor?_overlays h,
      hsplit, List.findSome?_append, List.findSome?_append, List.findSome?_singleton, hdeclared,
      Option.none_or, Option.or_eq_some_iff, List.findSome?_singleton,
      openPorts_fault?_eq_some_iff h]

/-- **The outcome of every build.** A process can be built at a version exactly if all conditions
hold for the version that was asked for, or else the declared one; and a build fails exactly with
what is reported for a condition that does not hold, all conditions before it holding. -/
theorem buildProcess_outcome (app : App) (name : String) (version : Option Version) :
    ((∃ d, app.buildProcess name version = .ok d) ↔
      ∀ condition : BuildCondition, condition.Holds app name (version.getD app.version)) ∧
    ∀ fault, app.buildProcess name version = .error fault ↔
      ∃ before condition after, BuildCondition.inOrder = before ++ condition :: after ∧
        (∀ earlier ∈ before, earlier.Holds app name (version.getD app.version)) ∧
        ¬ condition.Holds app name (version.getD app.version) ∧
        condition.fault? app name (version.getD app.version) = some fault := by
  have hnone : (∀ condition : BuildCondition, condition.Holds app name (version.getD app.version)) ↔
      BuildCondition.inOrder.findSome? (·.fault? app name (version.getD app.version)) = none := by
    rw [List.findSome?_eq_none_iff]
    simp only [BuildCondition.fault?_eq_none_iff]
    exact ⟨fun h condition _ => h condition, fun h c => h c (BuildCondition.mem_inOrder c)⟩
  refine ⟨?_, fun fault => ?_⟩
  · rw [hnone]
    constructor
    · rintro ⟨d, hbuild⟩
      refine Option.eq_none_iff_forall_ne_some.mpr fun fault hfault => ?_
      rw [← buildProcess_eq_error_iff, hbuild] at hfault
      exact absurd hfault (by simp)
    · intro hfaults
      cases hbuild : app.buildProcess name version with
      | ok d => exact ⟨d, rfl⟩
      | error fault =>
        rw [buildProcess_eq_error_iff, hfaults] at hbuild
        exact absurd hbuild (by simp)
  · rw [buildProcess_eq_error_iff, List.findSome?_eq_some_iff]
    simp only [← BuildCondition.fault?_eq_none_iff]
    constructor
    · rintro ⟨before, condition, after, hsplit, hfault, hbefore⟩
      exact ⟨before, condition, after, hsplit, hbefore, by simp [hfault], hfault⟩
    · rintro ⟨before, condition, after, hsplit, hbefore, -, hfault⟩
      exact ⟨before, condition, after, hsplit, hfault, hbefore⟩

end App

end ProcessPlan
