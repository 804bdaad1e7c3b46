import ProcessPlan.Proofs.Config.Composition
import ProcessPlan.Proofs.Success

/-!
# The processes of a configuration

A process is read from its node in one pass over the settings in its block. Two things hold of every
process that can be read, whatever settings it has and however often each of them stands there: its
name is the first argument of its node, and it is not declared with zero units. The processes of an
application are those of its process nodes, so their names are the first arguments of these.

## Main definitions

* `Config.Declares`: a document has a process node of a name

## Main results

* `Config.readProcess_eq_ok_iff`: what a process node is read as
* `Config.name_of_readProcess`, `Config.units_of_readProcess`: what holds of every process
* `App.mem_processes_iff`, `App.exists_process_of_mem`: the processes of an application
* `App.process?_eq_none_iff`: the names under which an application has no process
-/

namespace ProcessPlan

namespace Config

open Kdl (Node Document Value)

variable {process : String} {node : Node} {spec : ProcessSpec} {setting : ProcessSetting}

/-! ### Settings -/

theorem optional_eq_ok_some_iff {α β : Type} {read : α → Read β} {value : Option α} {b : β} :
    optional read value = .ok (some b) ↔ ∃ a, value = some a ∧ read a = .ok b := by
  cases value <;> simp [optional, map_eq_ok_iff]

theorem ne_zero_of_readUnits {value : Value} {count : UInt32}
    (h : readUnits process value = .ok count) : count ≠ 0 := by
  obtain ⟨read, -, h⟩ := bind_eq_ok_iff.1 h
  split at h
  · cases h
  · next hzero =>
    cases h
    exact hzero

/-- No node sets the units to zero. -/
theorem ne_units_zero_of_readProcessSetting
    (h : readProcessSetting process node = .ok (some setting)) : setting ≠ .units 0 := by
  rintro rfl
  have hunits (value : Value) : readUnits process value ≠ .ok 0 :=
    fun hzero => ne_zero_of_readUnits hzero rfl
  unfold readProcessSetting at h
  split at h <;> simp [readBlock, optional_eq_ok_some_iff, map_eq_ok_iff, hunits] at h

theorem units_apply (hsetting : setting ≠ .units 0) (hspec : spec.units ≠ some 0) :
    (setting.apply spec).units ≠ some 0 := by
  cases setting with
  | units count => exact fun hzero => hsetting (congrArg _ (Option.some.inj hzero))
  | _ => exact hspec

@[simp] theorem name_apply (spec : ProcessSpec) (setting : ProcessSetting) :
    (setting.apply spec).name = spec.name := by
  cases setting <;> rfl

/-! ### Processes -/

theorem readName_eq_ok_iff {kind name : String} :
    readName kind node = .ok name ↔ node.argumentText? = some name := by
  cases h : node.argumentText? <;> simp [readName, h]

/-- A process node is read as the declaration that its settings make of a blank one. -/
theorem readProcess_eq_ok_iff : readProcess node = .ok spec ↔ ∃ name settings,
    node.argumentText? = some name ∧ node.childNodes.mapM (readProcessSetting name) = .ok settings ∧
      (settings.filterMap id).foldl ProcessSetting.apply
        (.blank name ((node.propertyBool? "routable").getD false)) = spec := by
  simp only [readProcess, bind_eq_ok_iff, readName_eq_ok_iff, pure, Except.pure, Except.ok.injEq,
    exists_and_left]

/-- A process has the name of its node. -/
theorem name_of_readProcess (h : readProcess node = .ok spec) :
    node.argumentText? = some spec.name := by
  obtain ⟨name, settings, hname, -, rfl⟩ := readProcess_eq_ok_iff.1 h
  rw [hname, Option.some.injEq]
  refine List.foldlRecOn _ _ (motive := fun spec : ProcessSpec => name = spec.name) rfl
    fun spec hspec setting _ => ?_
  rw [name_apply, ← hspec]

/-- No process is declared with zero units. -/
theorem units_of_readProcess (h : readProcess node = .ok spec) : spec.units ≠ some 0 := by
  obtain ⟨name, settings, -, hsettings, rfl⟩ := readProcess_eq_ok_iff.1 h
  refine List.foldlRecOn _ _ (motive := fun spec : ProcessSpec => spec.units ≠ some 0) nofun
    fun spec hspec setting hmem => units_apply ?_ hspec
  obtain ⟨_, hread, rfl⟩ := List.mem_filterMap.1 hmem
  obtain ⟨node, -, hnode⟩ := exists_of_mem_mapM hsettings hread
  exact ne_units_zero_of_readProcessSetting hnode

/-! ### The processes of a document -/

/-- A document has a process node with a name. -/
def Declares (document : Document) (name : String) : Prop :=
  ∃ node ∈ document, node.name = "process" ∧ node.argumentText? = some name

theorem ofName?_eq_process_iff {name : String} :
    SectionKind.ofName? name = some .process ↔ name = "process" := by
  unfold SectionKind.ofName?
  split <;> simp_all

/-- A section is a process exactly if it is read from a process node. -/
theorem readSection_eq_process_iff :
    readSection node = .ok (.process spec) ↔
      node.name = "process" ∧ readProcess node = .ok spec := by
  constructor
  · intro h
    have hname : node.name = "process" :=
      ofName?_eq_process_iff.1 (kind?_of_readSection h).symm
    rw [readSection_eq, hname] at h
    obtain ⟨read, hread, hspec⟩ := map_eq_ok_iff.1 h
    cases hspec
    exact ⟨hname, hread⟩
  · rintro ⟨hname, hread⟩
    rw [readSection_eq, hname]
    exact map_eq_ok_iff.2 ⟨spec, hread, rfl⟩

end Config

namespace App

open Kdl (Document)
open Config

variable {standIn : String} {document : Document} {app : App} {spec : ProcessSpec}

/-- The processes of an application are those of the process nodes of its document. -/
theorem mem_processes_iff (h : ofDocument standIn document = .ok app) :
    spec ∈ app.processes ↔
      ∃ node ∈ document, node.name = "process" ∧ readProcess node = .ok spec := by
  have hspecs (part : Section) : spec ∈ part.specs ↔ part = .process spec := by
    cases part <;> simp [eq_comm]
  have htoOption (read : Read Section) (part : Section) :
      read.toOption = some part ↔ read = .ok part := by
    cases read <;> simp [Except.toOption]
  rw [(composedOf_of_ofDocument h).processes, List.mem_flatMap]
  simp only [sections, List.mem_filterMap, hspecs, exists_eq_right, htoOption,
    readSection_eq_process_iff]

/-- Each process node of its document is read as a process of an application. -/
theorem exists_process_of_mem (h : ofDocument standIn document = .ok app) {node : Kdl.Node}
    (hnode : node ∈ document) (hprocess : node.name = "process") :
    ∃ spec ∈ app.processes, readProcess node = .ok spec := by
  have hsound := (exists_ofDocument_iff standIn).1 ⟨app, h⟩
  obtain ⟨part, hpart⟩ := hsound.readable node hnode (by rw [hprocess]; rfl)
  rw [readSection_eq, hprocess] at hpart
  obtain ⟨spec, hspec, -⟩ := map_eq_ok_iff.1 hpart
  exact ⟨spec, (mem_processes_iff h).2 ⟨node, hnode, hprocess, hspec⟩, hspec⟩

/-- Under a name that its document does not declare, an application has no process. -/
theorem process?_eq_none_iff (h : ofDocument standIn document = .ok app) {name : String} :
    app.process? name = none ↔ ¬ Declares document name := by
  rw [process?, List.find?_eq_none]
  constructor
  · rintro hnone ⟨node, hnode, hprocess, hname⟩
    obtain ⟨spec, hmem, hspec⟩ := exists_process_of_mem h hnode hprocess
    have hspecName : spec.name = name :=
      Option.some.inj ((name_of_readProcess hspec).symm.trans hname)
    exact hnone spec hmem (decide_eq_true hspecName)
  · intro hundeclared spec hmem hname
    obtain ⟨node, hnode, hprocess, hspec⟩ := (mem_processes_iff h).1 hmem
    exact hundeclared ⟨node, hnode, hprocess, of_decide_eq_true hname ▸ name_of_readProcess hspec⟩

end App

end ProcessPlan
