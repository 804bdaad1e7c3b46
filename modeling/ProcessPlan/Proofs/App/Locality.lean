import Mathlib.Data.List.Forall2
import ProcessPlan.Files.Loading
import ProcessPlan.Proofs.App.Outcome
import ProcessPlan.Proofs.Config.Naming

/-!
# What the descriptor of a process depends on

An application declares many things, and the build of one process looks at few of them: its own
declaration, the ports that count for it, the healthcheck if there are such ports, and the items
that are in scope for it. Two applications that agree on these build the same descriptor, or fail
with the same fault, whatever else they declare and wherever their files are.

The proof compares the two lists of overlays place by place: each overlay of the one does to every
descriptor of the process what its counterpart in the other does.

## Main definitions

* `Overlay.SameFor`: two overlays do the same to every descriptor of a process
* `App.AgreesOn`: two applications agree on all that a process looks at
* `App.Unrelated`: one change of what a process does not look at

## Main results

* `build_eq_of_sameFor`: lists of overlays that do the same build the same
* `App.Unrelated.agreesOn`: such a change leaves all that the process looks at as it was
* `App.buildProcess_local`: what a process is built into depends on nothing else
-/

namespace ProcessPlan

/-! ### Overlays that do the same to a process -/

namespace Overlay

variable {process : String} {overlays overlays' : List Overlay}

/-- Two overlays do the same to every descriptor of a process, faults included. -/
def SameFor (process : String) (overlay overlay' : Overlay) : Prop :=
  ∀ d : Descriptor, d.name = process → overlay.apply d = overlay'.apply d

theorem SameFor.refl (process : String) (overlay : Overlay) : SameFor process overlay overlay :=
  fun _ _ => rfl

theorem applyAll_eq_of_sameFor (h : List.Forall₂ (SameFor process) overlays overlays')
    (d : Descriptor) (hd : d.name = process) : applyAll overlays d = applyAll overlays' d := by
  induction h generalizing d with
  | nil => rfl
  | @cons overlay overlay' rest rest' hfirst _ ih =>
    have hsame : overlay.apply d = overlay'.apply d := hfirst d hd
    rcases happly : overlay.apply d with ⟨d', _ | fault⟩
    · have hname : d'.name = process := (name_eq_of_step happly).trans hd
      rw [applyAll_cons_of_none happly, applyAll_cons_of_none (hsame ▸ happly), ih d' hname]
    · have hfault : (overlay.apply d).fault = some fault := by rw [happly]
      rw [applyAll_cons_of_some hfault, applyAll_cons_of_some (hsame ▸ hfault), hsame]

theorem sameFor_portsAndProbes {source source' : PortSource}
    (hcontainer : source.containerPorts process = source'.containerPorts process)
    (hservice : source.servicePorts process = source'.servicePorts process)
    (hprobes : source.Opens process → source.probes = source'.probes) :
    SameFor process (.portsAndProbes source) (.portsAndProbes source') := by
  rintro d rfl
  have hwiring : openWiring source d = openWiring source' d := by
    rw [openWiring, openWiring, hcontainer, hservice]
  have hopens : source.Opens d.name ↔ source'.Opens d.name := by
    rw [PortSource.Opens, PortSource.Opens, hcontainer, hservice]
  show wirePorts source d = wirePorts source' d
  by_cases h : source.Opens d.name
  · cases hp : source.probes with
    | error fault =>
      rw [wirePorts_of_error h hp, wirePorts_of_error (hopens.mp h) (hprobes h ▸ hp), hwiring]
    | ok probes =>
      rw [wirePorts_of_ok h hp, wirePorts_of_ok (hopens.mp h) (hprobes h ▸ hp), fullWiring,
        fullWiring, hcontainer, hservice]
  · rw [wirePorts_of_not_opens h, wirePorts_of_not_opens (mt hopens.mpr h), hwiring]

theorem sameFor_metadata {kind : MetadataKind} {version : Version}
    {items items' : List MetadataItem}
    (h : items.filter (·.InScope process version) = items'.filter (·.InScope process version)) :
    SameFor process (.metadata kind items version) (.metadata kind items' version) := by
  rintro d rfl
  show d.applyItems kind version items = d.applyItems kind version items'
  rw [← d.applyItems_filter kind version items, h, d.applyItems_filter kind version items']

end Overlay

/-- Lists of overlays that do the same to a process, place by place, build the same. -/
theorem build_eq_of_sameFor {name : String} {routable : Bool} {overlays overlays' : List Overlay}
    (h : List.Forall₂ (Overlay.SameFor name) overlays overlays') :
    build name routable overlays = build name routable overlays' := by
  rw [build, build, Overlay.applyAll_eq_of_sameFor h (.blank name routable) rfl]

namespace App

/-! ### Applications that agree on a process -/

/-- The declarations of ports that a process has of its own. -/
def ownPorts (app : App) (name : String) : List PortDeclaration :=
  (app.ports.processes.find? name).getD []

/-- Two applications agree on all that a process looks at: its own declaration, its ports, the
exposed ports if it has none of its own, the healthcheck if it has any ports at all, and the items
that are in scope for it at a version. -/
structure AgreesOn (name : String) (version : Version) (a b : App) : Prop where
  process : a.process? name = b.process? name
  ownPorts : a.ownPorts name = b.ownPorts name
  exposed : a.ownPorts name = [] → a.ports.exposed = b.ports.exposed
  healthcheck : a.ports.declarations name ≠ [] → a.ports.healthcheck = b.ports.healthcheck
  labels : a.labels.filter (·.InScope name version) = b.labels.filter (·.InScope name version)
  annotations :
    a.annotations.filter (·.InScope name version) = b.annotations.filter (·.InScope name version)

variable {name : String} {version : Version} {a b : App}

theorem AgreesOn.declarations (h : AgreesOn name version a b) :
    a.ports.declarations name = b.ports.declarations name := by
  have hown : (a.ports.processes.find? name).getD [] = (b.ports.processes.find? name).getD [] :=
    h.ownPorts
  have hexposed := h.exposed
  rw [App.ownPorts] at hexposed
  rw [DeclaredPorts.declarations, DeclaredPorts.declarations, ← hown]
  split
  · next hnil => rw [hexposed hnil]
  · rfl

theorem AgreesOn.source (h : AgreesOn name version a b) :
    Overlay.SameFor name (.portsAndProbes a.ports.source) (.portsAndProbes b.ports.source) := by
  refine Overlay.sameFor_portsAndProbes ?_ ?_ fun hopens => ?_
  · simp only [DeclaredPorts.source, h.declarations]
  · simp only [DeclaredPorts.source, h.declarations]
  · have hcheck := h.healthcheck (DeclaredPorts.opens_source_iff.mp hopens)
    simp only [DeclaredPorts.source, DeclaredPorts.probes, hcheck]

theorem AgreesOn.overlays (h : AgreesOn name version a b) (spec : ProcessSpec) :
    List.Forall₂ (Overlay.SameFor name) (a.overlays spec version) (b.overlays spec version) := by
  simp only [App.overlays, List.forall₂_cons, List.forall₂_nil_left_iff, Overlay.SameFor.refl,
    true_and, and_true]
  exact ⟨h.source, Overlay.sameFor_metadata h.labels, Overlay.sameFor_metadata h.annotations⟩

theorem buildProcess_eq_of_agreesOn {va vb : Option Version} (ha : va.getD a.version = version)
    (hb : vb.getD b.version = version) (h : AgreesOn name version a b) :
    a.buildProcess name va = b.buildProcess name vb := by
  cases hspec : a.process? name with
  | none => rw [buildProcess_of_none hspec, buildProcess_of_none (h.process ▸ hspec)]
  | some spec =>
    rw [buildProcess_of_some hspec, buildProcess_of_some (h.process ▸ hspec), ha, hb]
    exact build_eq_of_sameFor (h.overlays spec)

/-! ### Declarations that a process does not look at -/

/-- One change to an application that does not concern a process at a version: another name, one
more process of another name, other ports of another process, or one more item out of scope, which
need not be valid. -/
inductive Unrelated (name : String) (version : Version) (app : App) : App → Prop
  | rename (other : String) : app.Unrelated name version (app.rename other)
  | process (before after : List ProcessSpec) (spec : ProcessSpec)
      (hplace : app.processes = before ++ after) (hname : spec.name ≠ name) :
      app.Unrelated name version { app with processes := before ++ spec :: after }
  | ports (process : String) (declarations : List PortDeclaration) (hname : process ≠ name) :
      app.Unrelated name version
        { app with
          ports := { app.ports with processes := app.ports.processes.insert process declarations } }
  | label (before after : List MetadataItem) (item : MetadataItem)
      (hplace : app.labels = before ++ after) (hscope : ¬ item.InScope name version) :
      app.Unrelated name version { app with labels := before ++ item :: after }
  | annotation (before after : List MetadataItem) (item : MetadataItem)
      (hplace : app.annotations = before ++ after) (hscope : ¬ item.InScope name version) :
      app.Unrelated name version { app with annotations := before ++ item :: after }

private theorem filter_inScope_insert {before after items : List MetadataItem} {item : MetadataItem}
    (hplace : items = before ++ after) (hscope : ¬ item.InScope name version) :
    (before ++ item :: after).filter (·.InScope name version)
      = items.filter (·.InScope name version) := by
  rw [hplace, List.filter_append, List.filter_append,
    List.filter_cons_of_neg (by simpa using hscope)]

theorem AgreesOn.refl (name : String) (version : Version) (app : App) :
    AgreesOn name version app app :=
  ⟨rfl, rfl, fun _ => rfl, fun _ => rfl, rfl, rfl⟩

/-- After such a change, all that the process looks at is as before. -/
theorem Unrelated.agreesOn {app edited : App} (h : app.Unrelated name version edited) :
    AgreesOn name version edited app := by
  have hrefl := AgreesOn.refl name version app
  cases h with
  | rename other => exact { hrefl with }
  | process before after spec hplace hname =>
    have hprocess : (before ++ spec :: after).find? (·.name = name) = app.process? name := by
      rw [process?, hplace, List.find?_append, List.find?_append,
        List.find?_cons_of_neg (by simpa using hname)]
    exact { hrefl with process := hprocess }
  | ports process declarations hname =>
    have hfind : (app.ports.processes.insert process declarations).find? name
        = app.ports.processes.find? name := by
      rw [Table.find?_insert, if_neg hname.symm]
    refine { hrefl with ownPorts := ?_, exposed := fun _ => rfl, healthcheck := fun _ => rfl }
    show (Table.find? _ name).getD [] = (Table.find? _ name).getD []
    rw [hfind]
  | label before after item hplace hscope =>
    exact { hrefl with labels := filter_inScope_insert hplace hscope }
  | annotation before after item hplace hscope =>
    exact { hrefl with annotations := filter_inScope_insert hplace hscope }

/-! ### The place of the file -/

/-- What a process of a file is built into, seen through the application under any other name. -/
theorem loadProcess_eq_rename (fs : FileSystem) (path name other : String)
    (version : Option Version) :
    fs.loadProcess path name version
      = ((fs.loadApp path).map (·.rename other)).bind fun app => app.buildProcess name version := by
  rw [FileSystem.loadProcess]
  cases fs.loadApp path with
  | error fault => rfl
  | ok app =>
    have hrename : app.Unrelated name (version.getD app.version) (app.rename other) := .rename other
    symm
    show (app.rename other).buildProcess name version = app.buildProcess name version
    exact buildProcess_eq_of_agreesOn rfl rfl hrename.agreesOn

theorem loadProcess_eq_of_readText {fs fs' : FileSystem} {path path' text : String}
    (name : String) (version : Option Version) (h : fs.readText path = .ok text)
    (h' : fs'.readText path' = .ok text) :
    fs.loadProcess path name version = fs'.loadProcess path' name version := by
  rw [loadProcess_eq_rename fs path name unnamed, loadProcess_eq_rename fs' path' name unnamed,
    FileSystem.loadApp, FileSystem.loadApp, h, h']
  exact congrArg (Except.bind · _) (rename_ofText _ _ unnamed text)

/-! ### Locality -/

/-- **What a build depends on.** Two applications that agree on all that `AgreesOn` lists give the
same descriptor of the process, or the same fault. So no unrelated change of the declarations shows
in it, and neither does the place of the file that they are read from. -/
theorem buildProcess_local (name : String) :
    (∀ (a b : App) (va vb : Option Version), va.getD a.version = vb.getD b.version →
      AgreesOn name (va.getD a.version) a b → a.buildProcess name va = b.buildProcess name vb) ∧
    (∀ (app edited : App) (version : Option Version),
      app.Unrelated name (version.getD app.version) edited →
        edited.buildProcess name version = app.buildProcess name version) ∧
    (∀ (fs fs' : FileSystem) (path path' text : String) (version : Option Version),
      fs.readText path = .ok text → fs'.readText path' = .ok text →
        fs.loadProcess path name version = fs'.loadProcess path' name version) := by
  refine ⟨fun a b va vb hversion hagrees => ?_, fun app edited version h => ?_,
    fun fs fs' path path' text version h h' => loadProcess_eq_of_readText name version h h'⟩
  · exact buildProcess_eq_of_agreesOn rfl hversion.symm hagrees
  · have hversion : edited.version = app.version := by cases h <;> rfl
    exact buildProcess_eq_of_agreesOn (by rw [hversion]) rfl h.agreesOn

/-- An application of one process with one port. -/
def lone : App :=
  { blank "lone" with
    processes := [.blank "web" true]
    ports := { DeclaredPorts.empty with processes := .ofList [("web", [.ofExposed 80])] } }

/-- The same process among others, at another version: the exposed ports and an item without a
proper key concern the others alone. -/
def crowded : App where
  name := "crowded"
  version := 7
  processes := [.blank "batch" false, .blank "web" true, .blank "web" false]
  ports :=
    { processes := .ofList [("batch", [.ofExposed 81]), ("web", [.ofExposed 80])]
      exposed := [82]
      healthcheck := .none }
  labels := [⟨.pod, some "batch", none, .ofList [("", "x")]⟩]
  annotations := [⟨.pod, some "web", some 7, .ofList [("", "x")]⟩]

/-- Neither the other process nor the bad items show in what is built at version 1. -/
theorem buildProcess_crowded :
    crowded.buildProcess "web" (some 1) = lone.buildProcess "web" none ∧
    (lone.buildProcess "web" none).isOk ∧ ¬ (crowded.buildProcess "batch" (some 1)).isOk :=
  ⟨(buildProcess_local "web").1 crowded lone (some 1) none rfl
      { process := by decide +kernel
        ownPorts := by decide +kernel
        exposed := by decide +kernel
        healthcheck := fun _ => rfl
        labels := by decide +kernel
        annotations := by decide +kernel },
    by decide +kernel, by decide +kernel⟩

end App

end ProcessPlan
