import ProcessPlan.Files.Loading
import ProcessPlan.Proofs.App.Outcome
import ProcessPlan.Proofs.Config.Composition

/-!
# Building all processes

The descriptors of all processes are built one by one, each from the process that is found under its
name. What is found there is the process itself only because no configuration declares two processes
of one name; where this holds, every result is that of the declaration in its place, and it is the
same with or without the other processes, whether these can be built or not.

## Main results

* `App.nodup_names_of_ofText`: the processes of a configuration have different names
* `App.buildAll_eq_map`: then every process is built from its own declaration
* `App.buildAll_without`: and leaving out a process leaves out its result, and changes no other
* `FileSystem.loadAll_eq_map`: the results of a file are those of its processes, each loaded alone
* `App.buildAll_agrees`: building all agrees with building one
-/

namespace ProcessPlan

namespace App

variable {app : App} {spec : ProcessSpec}

/-! ### Names -/

/-- The application of a text is that of its document. -/
theorem exists_document_of_ofText {standIn text : String} (h : ofText standIn text = .ok app) :
    ∃ document, Kdl.Document.ofText? text = some document ∧
      ofDocument standIn document = .ok app := by
  rw [ofText] at h
  cases htext : Kdl.Document.ofText? text with
  | none => simp [htext] at h
  | some document =>
    simp only [htext] at h
    cases hdocument : ofDocument standIn document with
    | error fault => simp [hdocument, Except.mapError] at h
    | ok app' =>
      simp only [hdocument, Except.mapError, Except.ok.injEq] at h
      exact ⟨document, rfl, h ▸ hdocument⟩

/-- The processes of a configuration have different names. -/
theorem nodup_names_of_ofText {standIn text : String} (h : ofText standIn text = .ok app) :
    (app.processes.map (·.name)).Nodup := by
  obtain ⟨document, -, hdocument⟩ := exists_document_of_ofText h
  obtain ⟨hsound, hcomposed⟩ := ofDocument_eq_ok_iff.1 hdocument
  rw [hcomposed.processes]
  exact hsound.distinct

/-- Among processes of different names, each is the one that is found under its name. -/
theorem process?_name_of_mem (hnodup : (app.processes.map (·.name)).Nodup)
    (hmem : spec ∈ app.processes) : app.process? spec.name = some spec := by
  obtain ⟨before, after, hsplit⟩ := List.append_of_mem hmem
  rw [hsplit, List.map_append, List.map_cons] at hnodup
  rw [process?, hsplit, List.find?_append, List.find?_eq_none.2, Option.none_or,
    List.find?_cons_of_pos (by simp)]
  intro other hother hname
  -- A process of this name further in front would make the name stand twice.
  have hdisjoint := (List.nodup_append.1 hnodup).2.2
  exact hdisjoint other.name (List.mem_map_of_mem hother) spec.name List.mem_cons_self
    (of_decide_eq_true hname)

/-! ### Results -/

variable {version : Option Version}

/-- The result of a process: its name, and what is built from its declaration. -/
def result (app : App) (version : Option Version) (spec : ProcessSpec) :
    String × Except Fault Descriptor :=
  (spec.name, build spec.name spec.routable (app.overlays spec (version.getD app.version)))

theorem buildProcess_name_of_mem (hnodup : (app.processes.map (·.name)).Nodup)
    (hmem : spec ∈ app.processes) (version : Option Version) :
    app.buildProcess spec.name version
      = build spec.name spec.routable (app.overlays spec (version.getD app.version)) :=
  buildProcess_of_some (process?_name_of_mem hnodup hmem) version

/-- Every process is built from its own declaration. -/
theorem buildAll_eq_map (hnodup : (app.processes.map (·.name)).Nodup) (version : Option Version) :
    app.buildAll version = app.processes.map (app.result version) := by
  rw [buildAll]
  refine List.map_congr_left fun spec hmem => ?_
  rw [buildProcess_name_of_mem hnodup hmem, result]

/-- Leaving out a process leaves out its result, and changes no other. -/
theorem buildAll_without (hnodup : (app.processes.map (·.name)).Nodup)
    {before after : List ProcessSpec} (hsplit : app.processes = before ++ spec :: after)
    (version : Option Version) :
    { app with processes := before ++ after }.buildAll version
      = (app.buildAll version).eraseIdx before.length := by
  have hfewer : ((before ++ after).map (·.name)).Nodup := by
    refine hnodup.sublist (List.Sublist.map _ ?_)
    rw [hsplit]
    exact (List.Sublist.refl before).append (List.sublist_cons_self spec after)
  rw [buildAll_eq_map hnodup, buildAll_eq_map hfewer, hsplit, List.map_append, List.map_append,
    List.map_cons, List.eraseIdx_append_of_length_le (by simp), List.length_map, Nat.sub_self,
    List.eraseIdx_cons_zero]
  rfl

end App

namespace FileSystem

variable {fs : FileSystem} {path : String} {app : App}

theorem loadAll_eq_error_iff (version : Option Version) (fault : Fault) :
    fs.loadAll path version = .error fault ↔ fs.loadApp path = .error fault := by
  rw [loadAll]
  cases fs.loadApp path with
  | error fault' => simp [bind, Except.bind]
  | ok app => simp [bind, Except.bind, pure, Except.pure]

/-- The results of a file are those of its processes, each loaded alone. -/
theorem loadAll_eq_map (h : fs.loadApp path = .ok app) (version : Option Version) :
    fs.loadAll path version
      = .ok (app.processes.map fun spec => (spec.name, fs.loadProcess path spec.name version)) := by
  simp only [loadAll, loadProcess, h]
  rfl

end FileSystem

namespace App

/-- **Building all agrees with building one.** The processes of a configuration have different
names. There is one result for each, in their order: what is built from the declaration in that
place, which is also what is built under its name; and the other results are the same without it.
Loading all processes of a file fails exactly as loading the application does, and otherwise the
results are those of loading each process alone. -/
theorem buildAll_agrees :
    (∀ (standIn text : String) (app : App), ofText standIn text = .ok app →
      (app.processes.map (·.name)).Nodup ∧
      ∀ version : Option Version,
        (app.buildAll version).length = app.processes.length ∧
        (∀ (i : Nat) (spec : ProcessSpec), app.processes[i]? = some spec →
          (app.buildAll version)[i]? = some (spec.name,
            build spec.name spec.routable (app.overlays spec (version.getD app.version))) ∧
          app.buildProcess spec.name version
            = build spec.name spec.routable (app.overlays spec (version.getD app.version))) ∧
        ∀ (before after : List ProcessSpec) (spec : ProcessSpec),
          app.processes = before ++ spec :: after →
            { app with processes := before ++ after }.buildAll version
              = (app.buildAll version).eraseIdx before.length) ∧
    ∀ (fs : FileSystem) (path : String) (version : Option Version),
      (∀ fault, fs.loadAll path version = .error fault ↔ fs.loadApp path = .error fault) ∧
      ∀ app, fs.loadApp path = .ok app →
        ∃ results, fs.loadAll path version = .ok results ∧
          results.length = app.processes.length ∧
          ∀ (i : Nat) (spec : ProcessSpec), app.processes[i]? = some spec →
            results[i]? = some (spec.name, fs.loadProcess path spec.name version) := by
  refine ⟨fun standIn text app h => ?_, fun fs path version => ⟨?_, fun app h => ?_⟩⟩
  · have hnodup := nodup_names_of_ofText h
    refine ⟨hnodup, fun version => ⟨by simp [buildAll], fun i spec hspec => ⟨?_, ?_⟩, ?_⟩⟩
    · rw [buildAll_eq_map hnodup, List.getElem?_map, hspec]
      rfl
    · exact buildProcess_name_of_mem hnodup (List.mem_of_getElem? hspec) version
    · exact fun before after spec hsplit => buildAll_without hnodup hsplit version
  · exact FileSystem.loadAll_eq_error_iff version
  · refine ⟨_, FileSystem.loadAll_eq_map h version, by simp, fun i spec hspec => ?_⟩
    rw [List.getElem?_map, hspec]
    rfl

/-- A configuration of two processes. The first takes traffic and has no port. -/
def halfSoundText : String := "process web routable=#true; process worker"

/-- The application of that configuration, in a directory of the name `shop`. -/
def halfSound : App :=
  { blank "shop" with processes := [.blank "web" true, .blank "worker" false] }

/-- The file of that configuration. -/
def halfSoundFiles : FileSystem where
  nodes := [(["shop"], .directory), (["shop", "procflow.kdl"], .file halfSoundText.toUTF8)]
  workDirectory := []

/-- The second process is built from its own declaration, though the first cannot be built. -/
theorem buildAll_halfSound :
    ofText "shop" halfSoundText = .ok halfSound ∧
    halfSoundFiles.loadApp "/shop/procflow.kdl" = .ok halfSound ∧
    (halfSound.buildAll none)[1]? = some ("worker",
      build "worker" false (halfSound.overlays (.blank "worker" false) 1)) ∧
    halfSound.buildProcess "web" none = .error (.missingPorts "web") ∧
    (halfSound.buildProcess "worker" none).isOk ∧
    { halfSound with processes := [.blank "worker" false] }.buildAll none
      = (halfSound.buildAll none).eraseIdx 0 ∧
    ∃ results, halfSoundFiles.loadAll "/shop/procflow.kdl" none = .ok results ∧
      results.length = 2 := by
  have htext : ofText "shop" halfSoundText = .ok halfSound := by decide +kernel
  have hfile : halfSoundFiles.loadApp "/shop/procflow.kdl" = .ok halfSound := by decide +kernel
  obtain ⟨-, hall⟩ := buildAll_agrees.1 "shop" halfSoundText halfSound htext
  obtain ⟨-, hresult, hwithout⟩ := hall none
  obtain ⟨results, hresults, hlength, -⟩ :=
    (buildAll_agrees.2 halfSoundFiles "/shop/procflow.kdl" none).2 halfSound hfile
  exact ⟨htext, hfile, (hresult 1 (.blank "worker" false) rfl).1, by decide +kernel,
    by decide +kernel, hwithout [] [.blank "worker" false] (.blank "web" true) rfl, results,
    hresults, hlength⟩

end App

end ProcessPlan
