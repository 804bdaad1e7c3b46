import Mathlib.Data.List.Forall2
import ProcessPlan.Proofs.App.BuildAll
import ProcessPlan.Proofs.Command.Effects

/-!
# What a validation says

A validation and a build come to a descriptor on different ways: the one builds the processes of a
file in their order and goes on after a failure, the other builds one process by its name and ends
with its fault. Both load the same application under one selection, so what a validation says of a
process is what a build of it does, and a validation succeeds if all builds do.

## Main definitions

* `Selection.Loads`: the file and the application that a selection leads to
* `Command.Entry`: what is said of a process, by what a build of it does
* `Command.validated`: the report that entries make up

## Main results

* `Selection.descriptor_eq`: a descriptor is built from the application that is loaded
* `Command.run_validate_of_loads`: a validation reports one entry for each process
* `Command.validate_agrees`: validation agrees with build
-/

namespace ProcessPlan

variable {fs : FileSystem} {env : Environment} {selection : Selection} {path : String} {app : App}

/-! ### Loading -/

/-- A selection leads to a file, and its application can be loaded. -/
structure Selection.Loads (selection : Selection) (fs : FileSystem) (env : Environment)
    (path : String) (app : App) : Prop where
  found : selection.path fs env = .ok path
  loaded : fs.loadApp path = .ok app

/-- A descriptor is built from the application that is loaded. -/
theorem Selection.descriptor_eq (h : selection.Loads fs env path app) (process : String) :
    selection.descriptor fs env process
      = (app.buildProcess process selection.version).mapError (.unbuilt process) := by
  have hload : fs.loadProcess path process selection.version
      = app.buildProcess process selection.version := by
    rw [FileSystem.loadProcess, h.loaded]
    rfl
  rw [descriptor, h.found]
  simp only [hload]
  cases app.buildProcess process selection.version <;> rfl

namespace Command

variable {format : Format} {process entry : String}

/-! ### Entries -/

/-- What a validation says of a process, by what a build of it does under the same selection. -/
inductive Entry (fs : FileSystem) (env : Environment) (selection : Selection) (format : Format)
    (process : String) : String → Prop where
  | built (d : Descriptor) (hdescriptor : selection.descriptor fs env process = .ok d)
      (hbuild : (build process selection format).run fs env = .success (d.render format) none) :
      Entry fs env selection format process
        ("  ✓ " ++ process ++ " (ポート: " ++ toString d.containerPorts.length ++
          "個, 環境変数: " ++ toString d.environment.length ++ "個)\n")
  | unbuilt (fault : Fault)
      (hdescriptor : selection.descriptor fs env process = .error (.unbuilt process fault))
      (hbuild : (build process selection format).run fs env
        = .failure (.unbuilt process fault)) :
      Entry fs env selection format process ("  ✗ " ++ process ++ ": " ++ fault.message ++ "\n")

/-- An entry begins with the mark of a failure. -/
def ShowsFailure (entry : String) : Prop := "  ✗ ".toList <+: entry.toList

instance (entry : String) : Decidable (ShowsFailure entry) :=
  inferInstanceAs (Decidable (_ <+: _))

/-- An entry shows a failure exactly if the build fails. -/
theorem Entry.showsFailure_iff (h : Entry fs env selection format process entry) :
    ShowsFailure entry ↔ ((build process selection format).run fs env).code ≠ 0 := by
  cases h with
  | built d _ hbuild =>
    refine iff_of_false ?_ (by rw [hbuild]; simp [Report.success])
    simp [ShowsFailure, String.toList_append]
  | unbuilt fault _ hbuild =>
    refine iff_of_true ?_ (by rw [hbuild]; simp [Report.failure, failureCode])
    simp [ShowsFailure, String.toList_append]

/-- The line on the result for a process is an entry for it. -/
theorem entry_validationLine (h : selection.Loads fs env path app) (format : Format)
    (process : String) :
    Entry fs env selection format process
      (validationLine (process, app.buildProcess process selection.version)) := by
  have hdescriptor := selection.descriptor_eq h process
  cases hbuild : app.buildProcess process selection.version with
  | ok d =>
    rw [hbuild] at hdescriptor
    exact .built d hdescriptor (run_build_of_ok hdescriptor)
  | error fault =>
    rw [hbuild] at hdescriptor
    refine .unbuilt fault hdescriptor ?_
    rw [run, runBuild, hdescriptor]
    rfl

/-! ### Reports -/

/-- The report that entries make up. It succeeds if none of them shows a failure, and otherwise says
how many do. -/
def validated (path : String) (entries : List String) : Report :=
  let body := "設定を検証中...\n" ++ "設定ファイル: " ++ path ++ "\n" ++
    "\nプロセス: " ++ toString entries.length ++ "個\n" ++ String.join entries ++ "\n"
  let failures := entries.countP fun entry => ShowsFailure entry
  if failures = 0 then .success (body ++ "✓ 設定ファイルは正常です！\n") none
  else
    { code := failureCode
      output := body
      errors := "✗ " ++ toString failures ++ "個のプロセスでエラーがあります\n"
      created := none }

theorem code_validated_eq_zero_iff {entries : List String} :
    (validated path entries).code = 0 ↔ ∀ entry ∈ entries, ¬ ShowsFailure entry := by
  rw [validated]
  split
  · next hnone => simpa [Report.success] using hnone
  · next hsome => simpa [failureCode] using hsome

theorem output_validated_of_showsFailure {entries : List String} (hmem : entry ∈ entries)
    (h : ShowsFailure entry) : (validated path entries).output
      = "設定を検証中...\n" ++ "設定ファイル: " ++ path ++ "\n" ++ "\nプロセス: " ++
        toString entries.length ++ "個\n" ++ String.join entries ++ "\n" := by
  have hfailures : (entries.countP fun entry => ShowsFailure entry) ≠ 0 := by
    simpa [List.countP_eq_zero] using ⟨entry, hmem, h⟩
  exact congrArg Report.output (if_neg hfailures)

/-- The line on a result shows a failure exactly if it is one. -/
theorem showsFailure_validationLine_iff (result : String × Except Fault Descriptor) :
    ShowsFailure (validationLine result) ↔ isFailure result = true := by
  obtain ⟨process, d | fault⟩ := result <;>
    simp [ShowsFailure, validationLine, isFailure, String.toList_append]

/-- Where an application is loaded, a validation reports one entry for each of its processes. -/
theorem run_validate_of_loads (h : selection.Loads fs env path app) :
    (validate selection).run fs env
      = validated path ((app.buildAll selection.version).map validationLine) := by
  have hload : fs.loadAll path selection.version = .ok (app.buildAll selection.version) := by
    rw [FileSystem.loadAll, h.loaded]
    rfl
  have hcount : (app.buildAll selection.version).countP isFailure
      = ((app.buildAll selection.version).map validationLine).countP
        (fun entry => ShowsFailure entry) := by
    rw [List.countP_map]
    exact List.countP_congr fun result _ => by simp [showsFailure_validationLine_iff]
  simp only [run, runValidate, h.found, hload]
  cases hfailures : (app.buildAll selection.version).countP isFailure with
  | zero => simp only [validated, List.length_map, ← hcount, hfailures, if_true]
  | succ failures =>
    simp only [validated, List.length_map, ← hcount, hfailures, Nat.succ_ne_zero, if_false]

/-- A validation succeeds only where an application is loaded. -/
theorem exists_loads_of_code_run_validate (h : ((validate selection).run fs env).code = 0) :
    ∃ path app, selection.Loads fs env path app := by
  cases hpath : selection.path fs env with
  | error fault => simp [run, runValidate, hpath, failureCode] at h
  | ok path =>
    cases happ : fs.loadApp path with
    | error fault =>
      have hload := (FileSystem.loadAll_eq_error_iff selection.version fault).2 happ
      simp [run, runValidate, hpath, hload, failureCode] at h
    | ok app => exact ⟨path, app, hpath, happ⟩

/-- Where an application is loaded, a validation succeeds exactly if all builds do. -/
theorem code_run_validate_eq_zero_iff (h : selection.Loads fs env path app) (format : Format) :
    ((validate selection).run fs env).code = 0 ↔
      ∀ spec ∈ app.processes, ((build spec.name selection format).run fs env).code = 0 := by
  rw [run_validate_of_loads h, code_validated_eq_zero_iff, App.buildAll, List.map_map,
    List.forall_mem_map]
  refine forall₂_congr fun spec _ => ?_
  rw [Function.comp_apply, (entry_validationLine h format spec.name).showsFailure_iff, not_not]

/-- **Validation agrees with build.** A validation succeeds exactly if a file is found, its
application can be loaded and a build of every process in it succeeds under the same selection.
Where the application is loaded, the report has one entry for each process, in their order: the
numbers of ports and variables of the descriptor that the build shows, or the fault that it fails
with; and the failures that it counts are the entries that show one. -/
theorem validate_agrees (fs : FileSystem) (env : Environment) (selection : Selection)
    (format : Format) :
    (((validate selection).run fs env).code = 0 ↔
      ∃ path app, selection.Loads fs env path app ∧
        ∀ spec ∈ app.processes, ((build spec.name selection format).run fs env).code = 0) ∧
    ∀ path app, selection.Loads fs env path app →
      ∃ entries, (validate selection).run fs env = validated path entries ∧
        List.Forall₂ (fun spec entry => Entry fs env selection format spec.name entry ∧
          (ShowsFailure entry ↔ ((build spec.name selection format).run fs env).code ≠ 0))
          app.processes entries := by
  refine ⟨⟨fun hzero => ?_, ?_⟩, fun path app h => ⟨_, run_validate_of_loads h, ?_⟩⟩
  · obtain ⟨path, app, h⟩ := exists_loads_of_code_run_validate hzero
    exact ⟨path, app, h, (code_run_validate_eq_zero_iff h format).1 hzero⟩
  · rintro ⟨path, app, h, hbuilds⟩
    exact (code_run_validate_eq_zero_iff h format).2 hbuilds
  · rw [App.buildAll, List.map_map, List.forall₂_map_right_iff, List.forall₂_same]
    intro spec _
    have hentry := entry_validationLine h format spec.name
    exact ⟨hentry, hentry.showsFailure_iff⟩

/-- The selection of the file with one process that cannot be built. -/
def halfSoundSelection : Selection := ⟨some "/shop/procflow.kdl", none⟩

/-- No variables. -/
def noVariables : Environment := ⟨none, none, none, none⟩

/-- It has two entries, of which the first shows a failure. -/
theorem validate_halfSound :
    halfSoundSelection.Loads App.halfSoundFiles noVariables "/shop/procflow.kdl" App.halfSound ∧
    ∃ entries, (validate halfSoundSelection).run App.halfSoundFiles noVariables
        = validated "/shop/procflow.kdl" entries ∧
      List.Forall₂ (fun spec entry =>
          Entry App.halfSoundFiles noVariables halfSoundSelection .yaml spec.name entry ∧
          (ShowsFailure entry ↔ ((build spec.name halfSoundSelection .yaml).run App.halfSoundFiles
            noVariables).code ≠ 0))
        App.halfSound.processes entries := by
  have hloads : halfSoundSelection.Loads App.halfSoundFiles noVariables "/shop/procflow.kdl"
      App.halfSound := ⟨rfl, by decide +kernel⟩
  exact ⟨hloads, (validate_agrees _ _ _ .yaml).2 _ _ hloads⟩

/-- Lines, each with a break behind it, have as many breaks. -/
theorem count_lineBreak_join {lines : List String} (h : ∀ line ∈ lines, '\n' ∉ line.toList) :
    (String.join (lines.map (· ++ "\n"))).toList.count '\n' = lines.length := by
  induction lines with
  | nil => rfl
  | cons line rest ih =>
    obtain ⟨hline, hrest⟩ := List.forall_mem_cons.1 h
    rw [List.map_cons, String.join_cons, String.toList_append, List.count_append, ih hrest,
      String.toList_append, List.count_append, List.count_eq_zero_of_not_mem hline,
      List.length_cons, Nat.add_comm]
    rfl

theorem one_le_count_lineBreak_validationLine (result : String × Except Fault Descriptor) :
    1 ≤ (validationLine result).toList.count '\n' := by
  rw [List.one_le_count_iff]
  obtain ⟨process, d | fault⟩ := result <;>
    simp [validationLine, String.toList_append]

/-- The line on a process without ports has a second line, with a hint. -/
theorem two_le_count_lineBreak_validationLine (process : String) :
    2 ≤ (validationLine (process, .error (.missingPorts process))).toList.count '\n' := by
  have hbreak : "' にポートがありません\n".toList.count '\n' = 1 := by decide +kernel
  have hend : "\n".toList.count '\n' = 1 := by decide
  obtain ⟨start, hint, hmessage⟩ : ∃ start hint, (Fault.missingPorts process).message
      = start ++ "' にポートがありません\n" ++ hint := ⟨_, _, rfl⟩
  simp only [validationLine, hmessage, String.toList_append, List.count_append]
  omega

/-- An entry may take more than one line: there is no way to read the entries of that file as two
lines, one for each process. -/
theorem validate_halfSound_not_lines :
    halfSoundSelection.Loads App.halfSoundFiles noVariables "/shop/procflow.kdl" App.halfSound ∧
    ¬ ∃ lines : List String, lines.length = App.halfSound.processes.length ∧
      (∀ line ∈ lines, '\n' ∉ line.toList) ∧
      ((validate halfSoundSelection).run App.halfSoundFiles noVariables).output
        = "設定を検証中...\n" ++ "設定ファイル: " ++ "/shop/procflow.kdl" ++ "\n" ++
          "\nプロセス: " ++ toString 2 ++ "個\n" ++ String.join (lines.map (· ++ "\n")) ++
          "\n" := by
  have hloads : halfSoundSelection.Loads App.halfSoundFiles noVariables "/shop/procflow.kdl"
      App.halfSound := ⟨rfl, by decide +kernel⟩
  refine ⟨hloads, ?_⟩
  rintro ⟨lines, hlength, hlines, houtput⟩
  have hbuild : App.halfSound.buildAll halfSoundSelection.version
      = [("web", .error (.missingPorts "web")), ("worker", .ok (.blank "worker" false))] := by
    decide +kernel
  rw [run_validate_of_loads hloads, hbuild, List.map_cons, List.map_cons, List.map_nil,
    output_validated_of_showsFailure List.mem_cons_self
      ((showsFailure_validationLine_iff _).2 rfl)] at houtput
  have hentries := (String.append_right_inj _).1 ((String.append_left_inj _).1 houtput)
  have hcount := congrArg (·.toList.count '\n') hentries
  have hweb := two_le_count_lineBreak_validationLine "web"
  have hworker := one_le_count_lineBreak_validationLine ("worker", .ok (.blank "worker" false))
  have hlength' : App.halfSound.processes.length = 2 := rfl
  simp only [String.join_cons, String.toList_append, List.count_append,
    count_lineBreak_join hlines] at hcount
  omega

end Command

end ProcessPlan
