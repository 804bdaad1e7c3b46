import Mathlib.Data.List.Induction
import ProcessPlan.Config.Sections
import ProcessPlan.Proofs.Table

/-!
# How sections compose

A document is read section by section, each on its own, and the sections of one kind add up to a
part of the application that those of other kinds do not touch: for a name, a version and a
healthcheck the last section decides, and everything else is appended. So there is an application
exactly if every section can be read and no two processes have one name; it can be said outright
what it is; and only the order among sections of one kind matters.

## Main definitions

* `Config.Section.names`, …, `Config.Section.annotationItems`: what a section has to say, one list
  for each part of an application
* `App.ComposedOf`: the application that a list of sections makes up
* `Config.Sound`, `Config.Rejects`: a document without a fault, and the fault of a node after others
* `Config.SameSections`: the sections of each kind are the same, in the same order

## Main results

* `Config.addSection_composed`: one more section
* `App.composedOf_of_ofDocument`, `App.exists_ofDocument_iff`, `App.ofDocument_eq_error_iff`: a
  whole document
* `App.ofDocument_composition`: how the sections of a document compose
-/

namespace ProcessPlan

namespace Config

/-! ### What a section has to say -/

namespace Section

/-- The name of the application. -/
@[simp] def names : Section → List String
  | .app name _ => [name]
  | _ => []

/-- The version of the application, if the section carries one. -/
@[simp] def versions : Section → List Version
  | .app _ version => version.toList
  | _ => []

/-- The process that is declared. -/
@[simp] def specs : Section → List ProcessSpec
  | .process spec => [spec]
  | _ => []

/-- The ports of processes, as often as a process is listed. -/
@[simp] def portDeclarations : Section → List (String × List PortDeclaration)
  | .ports declarations => declarations
  | _ => []

/-- The ports that the image exposes. -/
@[simp] def exposedNumbers : Section → List UInt16
  | .exposedPorts numbers => numbers
  | _ => []

/-- The probes of the section, all three at once. -/
@[simp] def healthchecks : Section → List Probes
  | .healthcheck probes => [probes]
  | _ => []

/-- The labels. -/
@[simp] def labelItems : Section → List MetadataItem
  | .labels items => items
  | _ => []

/-- The annotations. -/
@[simp] def annotationItems : Section → List MetadataItem
  | .annotations items => items
  | _ => []

end Section

/-- The ports declared for a process, those of all its listings one after the other; none if it is
not listed. -/
def declaredFor (process : String) (declarations : List (String × List PortDeclaration)) :
    Option (List PortDeclaration) :=
  match declarations.filter (·.1 = process) with
  | [] => none
  | listings => some (listings.flatMap (·.2))

end Config

open Config (Section declaredFor)

/-- The application that a list of sections makes up, under a name that stands in for an undeclared
one. -/
structure App.ComposedOf (standIn : String) (parts : List Section) (app : App) : Prop where
  name : app.name = (parts.flatMap Section.names).getLast?.getD standIn
  version : app.version = (parts.flatMap Section.versions).getLast?.getD App.firstVersion
  processes : app.processes = parts.flatMap Section.specs
  labels : app.labels = parts.flatMap Section.labelItems
  annotations : app.annotations = parts.flatMap Section.annotationItems
  exposed : app.ports.exposed = parts.flatMap Section.exposedNumbers
  healthcheck : app.ports.healthcheck = (parts.flatMap Section.healthchecks).getLast?.getD .none
  declared : ∀ process, app.ports.processes.find? process
    = declaredFor process (parts.flatMap Section.portDeclarations)

namespace App

variable {standIn : String} {parts : List Section} {app app' : App}

/-- The sections make up one application. -/
theorem ComposedOf.unique (h : app.ComposedOf standIn parts) (h' : app'.ComposedOf standIn parts) :
    app = app' := by
  have hprocesses : app.ports.processes = app'.ports.processes :=
    Table.ext_find? fun process => (h.declared process).trans (h'.declared process).symm
  have hports : app.ports = app'.ports := by
    calc app.ports = ⟨app.ports.processes, app.ports.exposed, app.ports.healthcheck⟩ := rfl
      _ = app'.ports := by rw [hprocesses, h.exposed, h.healthcheck, ← h'.exposed, ← h'.healthcheck]
  calc app = ⟨app.name, app.version, app.processes, app.ports, app.labels, app.annotations⟩ := rfl
    _ = app' := by
      rw [h.name, h.version, h.processes, hports, h.labels, h.annotations, ← h'.name, ← h'.version,
        ← h'.processes, ← h'.labels, ← h'.annotations]

theorem composedOf_blank (standIn : String) : (blank standIn).ComposedOf standIn [] :=
  ⟨rfl, rfl, rfl, rfl, rfl, rfl, rfl, fun _ => rfl⟩

end App

namespace Config

open Kdl (Node Document)

/-! ### One more section -/

/-- A last listing of a process goes after the others of the process. -/
theorem declaredFor_concat (process : String) (before : List (String × List PortDeclaration))
    (last : String × List PortDeclaration) :
    declaredFor process (before ++ [last])
      = if process = last.1 then some ((declaredFor process before).getD [] ++ last.2)
        else declaredFor process before := by
  rw [declaredFor, declaredFor, List.filter_append]
  by_cases h : last.1 = process
  · subst h
    rw [if_pos rfl]
    cases before.filter (·.1 = last.1) <;> simp
  · simp [h, Ne.symm h]

variable {ports : DeclaredPorts}

/-- Listings are added one by one, whatever stands before them. -/
theorem find?_foldl_declare {before : List (String × List PortDeclaration)}
    (h : ∀ process, ports.processes.find? process = declaredFor process before)
    (listings : List (String × List PortDeclaration)) (process : String) :
    (listings.foldl (fun ports d => ports.declare d.1 d.2) ports).processes.find? process
      = declaredFor process (before ++ listings) := by
  induction listings generalizing ports before with
  | nil => simpa using h process
  | cons first rest ih =>
    have hfirst (process : String) : (ports.declare first.1 first.2).processes.find? process
        = declaredFor process (before ++ [first]) := by
      rw [DeclaredPorts.declare, Table.find?_insert, declaredFor_concat, h, h]
      by_cases heq : process = first.1
      · simp [heq]
      · simp [heq]
    simpa using ih hfirst

/-- Whatever one more listing leaves as it was, any number of them do. -/
theorem foldl_declare_eq {α : Type} (field : DeclaredPorts → α)
    (hfield : ∀ (ports : DeclaredPorts) (process : String) (more : List PortDeclaration),
      field (ports.declare process more) = field ports)
    (listings : List (String × List PortDeclaration)) :
    field (listings.foldl (fun ports d => ports.declare d.1 d.2) ports) = field ports := by
  induction listings generalizing ports with
  | nil => rfl
  | cons first rest ih => exact ih.trans (hfield ports first.1 first.2)

variable {standIn : String} {parts : List Section} {part : Section} {app next : App}

/-- A section that is added to an application stands after those that make it up. -/
theorem addSection_composed (h : app.ComposedOf standIn parts)
    (hadd : addSection app part = .ok next) : next.ComposedOf standIn (parts ++ [part]) := by
  obtain ⟨hname, hversion, hprocesses, hlabels, hannotations, hexposed, hhealthcheck, hdeclared⟩ :=
    h
  cases part with
  | app name version =>
    cases hadd
    cases version <;> constructor <;> simp [*]
  | process spec =>
    rw [addSection] at hadd
    split at hadd <;> cases hadd
    constructor <;> simp [*]
  | ports listings =>
    cases hadd
    constructor
    case declared =>
      intro process
      simpa using find?_foldl_declare hdeclared listings process
    case exposed =>
      simpa using (foldl_declare_eq (·.exposed) (fun _ _ _ => rfl) listings).trans hexposed
    case healthcheck =>
      simpa using (foldl_declare_eq (·.healthcheck) (fun _ _ _ => rfl) listings).trans hhealthcheck
    all_goals simp [*]
  | _ =>
    cases hadd
    constructor <;> simp [*]

/-- The names of the processes among the sections. -/
def processNames (parts : List Section) : List String := (parts.flatMap Section.specs).map (·.name)

/-- A section is refused only if it declares a process under a name that is taken. -/
theorem addSection_eq_error_iff (h : app.ComposedOf standIn parts) {fault : ConfigFault} :
    addSection app part = .error fault ↔ ∃ spec, part = .process spec ∧
      spec.name ∈ processNames parts ∧ fault = .duplicateProcess spec.name := by
  cases part with
  | process spec =>
    have htaken : (app.process? spec.name).isSome ↔ spec.name ∈ processNames parts := by
      simp only [App.process?, h.processes, processNames, List.find?_isSome, decide_eq_true_eq,
        List.mem_map]
    rw [addSection]
    split
    · next hsome => simp [htaken.1 hsome, eq_comm]
    · next hsome => simp [mt htaken.2 hsome]
  | _ => simp [addSection]

/-! ### Documents -/

/-- The sections of a document, those that can be read. -/
def sections (document : Document) : List Section :=
  document.filterMap fun node => (readSection node).toOption

@[simp] theorem sections_append (before after : Document) :
    sections (before ++ after) = sections before ++ sections after :=
  List.filterMap_append

theorem sections_singleton {node : Node} (h : readSection node = .ok part) :
    sections [node] = [part] := by
  simp [sections, h, Except.toOption]

/-- The kinds of sections. -/
inductive SectionKind where
  | app
  | process
  | ports
  | exposedPorts
  | healthcheck
  | labels
  | annotations
deriving DecidableEq

/-- The kind of section that a node of a name is. -/
def SectionKind.ofName? : String → Option SectionKind
  | "app" => some .app
  | "process" => some .process
  | "ports" => some .ports
  | "exposed-ports" | "exposed_ports" => some .exposedPorts
  | "healthcheck" => some .healthcheck
  | "labels" => some .labels
  | "annotations" => some .annotations
  | _ => none

/-- The kind of a section, none for a node that is no section. -/
def Section.kind? : Section → Option SectionKind
  | .app .. => some .app
  | .process _ => some .process
  | .ports _ => some .ports
  | .exposedPorts _ => some .exposedPorts
  | .healthcheck _ => some .healthcheck
  | .labels _ => some .labels
  | .annotations _ => some .annotations
  | .unknown => none

/-- How a node is read depends on its name only through the kind of its section. -/
theorem readSection_eq (node : Node) :
    readSection node = match SectionKind.ofName? node.name with
      | some .app => readApp node
      | some .process => (readProcess node).map .process
      | some .ports => (readProcessPorts node).map .ports
      | some .exposedPorts => (readExposedPorts node).map .exposedPorts
      | some .healthcheck => (readProbes node).map .healthcheck
      | some .labels => (readItems node).map .labels
      | some .annotations => (readItems node).map .annotations
      | none => .ok .unknown := by
  unfold readSection SectionKind.ofName?
  generalize node.name = name
  split
  case h_9 => simp
  all_goals rfl

private theorem kind?_of_map {α : Type} {read : Read α} {make : α → Section}
    {kind : Option SectionKind} (hmake : ∀ a, (make a).kind? = kind)
    (h : read.map make = .ok part) : part.kind? = kind := by
  cases read with
  | error fault => cases h
  | ok a => exact Except.ok.inj h ▸ hmake a

private theorem kind?_of_readApp {node : Node} (h : readApp node = .ok part) :
    part.kind? = some .app := by
  simp only [readApp, bind, Except.bind] at h
  split at h
  · cases h
  · split at h <;> cases h
    rfl

/-- The name of a node decides of what kind its section is. -/
theorem kind?_of_readSection {node : Node} (h : readSection node = .ok part) :
    part.kind? = SectionKind.ofName? node.name := by
  rw [readSection_eq] at h
  cases hkind : SectionKind.ofName? node.name with
  | none =>
    rw [hkind] at h
    exact Except.ok.inj h ▸ rfl
  | some kind =>
    rw [hkind] at h
    cases kind with
    | app => exact kind?_of_readApp h
    | _ => exact kind?_of_map (fun _ => rfl) h

/-- A document without a fault: the node of every section can be read on its own, and no two
processes have one name. -/
@[mk_iff] structure Sound (document : Document) : Prop where
  readable : ∀ node ∈ document, (SectionKind.ofName? node.name).isSome →
    ∃ part, readSection node = .ok part
  distinct : (processNames (sections document)).Nodup

/-- The fault of a node that stands after others: it cannot be read, or it declares a process under
a name that a process before it has. -/
inductive Rejects (before : Document) (node : Node) : ConfigFault → Prop where
  | unreadable {fault : ConfigFault} (h : readSection node = .error fault) :
    Rejects before node fault
  | duplicate {spec : ProcessSpec} (h : readSection node = .ok (.process spec))
      (taken : spec.name ∈ processNames (sections before)) :
    Rejects before node (.duplicateProcess spec.name)

theorem addNode_eq_error_iff {before : Document} {node : Node} {fault : ConfigFault}
    (h : app.ComposedOf standIn (sections before)) :
    addNode app node = .error fault ↔ Rejects before node fault := by
  rw [addNode]
  cases hread : readSection node with
  | error fault' =>
    show Except.error fault' = Except.error fault ↔ _
    constructor
    · intro heq
      cases heq
      exact .unreadable hread
    · rintro (hread' | hread') <;> rw [hread] at hread' <;> cases hread'
      rfl
  | ok part =>
    show addSection app part = .error fault ↔ _
    rw [addSection_eq_error_iff h]
    constructor
    · rintro ⟨spec, rfl, htaken, rfl⟩
      exact .duplicate hread htaken
    · rintro (hread' | ⟨hread', htaken⟩) <;> rw [hread] at hread' <;> cases hread'
      exact ⟨_, rfl, htaken, rfl⟩

theorem nodup_processNames_concat : (processNames (parts ++ [part])).Nodup ↔
    (processNames parts).Nodup ∧
      ¬ ∃ spec, part = .process spec ∧ spec.name ∈ processNames parts := by
  rw [processNames, List.flatMap_append, List.map_append, ← processNames]
  cases part with
  | process spec =>
    show (processNames parts ++ [spec.name]).Nodup ↔ _
    rw [← List.concat_eq_append, List.nodup_concat]
    simp [and_comm]
  | _ => simp

/-- Of a node that can be read, a name that is taken is all that can be wrong. -/
theorem exists_rejects_iff {before : Document} {node : Node} (hread : readSection node = .ok part) :
    (∃ fault, Rejects before node fault) ↔
      ∃ spec, part = .process spec ∧ spec.name ∈ processNames (sections before) := by
  constructor
  · rintro ⟨_, hread' | ⟨hread', htaken⟩⟩ <;> rw [hread] at hread' <;> cases hread'
    exact ⟨_, rfl, htaken⟩
  · rintro ⟨spec, rfl, htaken⟩
    exact ⟨_, .duplicate hread htaken⟩

/-- A document with one more node is sound if it was before and nothing is wrong with the node. -/
theorem sound_concat_iff {document : Document} {node : Node} :
    Sound (document ++ [node]) ↔ Sound document ∧ ¬ ∃ fault, Rejects document node fault := by
  cases hread : readSection node with
  | error fault =>
    have hrejects : Rejects document node fault := .unreadable hread
    have hrecognised : (SectionKind.ofName? node.name).isSome := by
      by_contra hnone
      rw [Option.not_isSome_iff_eq_none] at hnone
      rw [readSection_eq, hnone] at hread
      cases hread
    refine iff_of_false (fun hsound => ?_) fun ⟨_, hnone⟩ => hnone ⟨fault, hrejects⟩
    obtain ⟨part, hpart⟩ := hsound.readable node (by simp) hrecognised
    rw [hread] at hpart
    cases hpart
  | ok part =>
    have hreadable : (∀ other ∈ document ++ [node], (SectionKind.ofName? other.name).isSome →
        ∃ part, readSection other = .ok part) ↔ ∀ other ∈ document,
          (SectionKind.ofName? other.name).isSome → ∃ part, readSection other = .ok part := by
      rw [List.forall_mem_append, List.forall_mem_singleton]
      exact and_iff_left fun _ => ⟨part, hread⟩
    have hdistinct : (processNames (sections (document ++ [node]))).Nodup ↔
        (processNames (sections document)).Nodup ∧ ¬ ∃ fault, Rejects document node fault := by
      rw [sections_append, sections_singleton hread, nodup_processNames_concat,
        exists_rejects_iff hread]
    rw [sound_iff, sound_iff, hreadable, hdistinct, and_assoc]

/-! ### The order among sections -/

/-- The nodes of a document that are sections of one kind. -/
def ofKind (kind : SectionKind) (document : Document) : Document :=
  document.filter fun node => SectionKind.ofName? node.name = some kind

/-- Two documents have the same sections of each kind in the same order, however those of different
kinds alternate. -/
def SameSections (document document' : Document) : Prop :=
  ∀ kind, ofKind kind document = ofKind kind document'

variable {document document' : Document}

/-- What only sections of one kind have to say is found among those. -/
theorem flatMap_sections_ofKind {α : Type} {select : Section → List α} (kind : SectionKind)
    (hselect : ∀ part : Section, part.kind? ≠ some kind → select part = [])
    (document : Document) :
    (sections (ofKind kind document)).flatMap select = (sections document).flatMap select := by
  induction document with
  | nil => rfl
  | cons node rest ih =>
    rw [← List.singleton_append, sections_append, List.flatMap_append, ← ih]
    by_cases hkind : SectionKind.ofName? node.name = some kind
    · rw [ofKind, List.filter_append, sections_append, List.flatMap_append, ofKind]
      simp [hkind]
    · have hnode : (sections [node]).flatMap select = [] := by
        cases hread : readSection node with
        | error fault => simp [sections, hread, Except.toOption]
        | ok part =>
          rw [sections_singleton hread]
          simpa using hselect part (kind?_of_readSection hread ▸ hkind)
      simp [ofKind, hkind, hnode]

theorem SameSections.symm (h : SameSections document document') :
    SameSections document' document := fun kind => (h kind).symm

end Config

namespace App

open Kdl (Node Document)
open Config

variable {standIn : String} {document : Document} {app : App} {fault : ConfigFault}

theorem ofDocument_concat (standIn : String) (document : Document) (node : Node) :
    ofDocument standIn (document ++ [node])
      = (ofDocument standIn document >>= fun app => addNode app node) := by
  rw [ofDocument, List.foldlM_append]
  simp [ofDocument]

/-- An application is made up of the sections of its document. -/
theorem composedOf_of_ofDocument (h : ofDocument standIn document = .ok app) :
    app.ComposedOf standIn (sections document) := by
  induction document using List.reverseRecOn generalizing app with
  | nil =>
    cases h
    exact composedOf_blank standIn
  | append_singleton before node ih =>
    rw [ofDocument_concat] at h
    cases hbefore : ofDocument standIn before with
    | error fault =>
      rw [hbefore] at h
      cases h
    | ok previous =>
      rw [hbefore] at h
      change addNode previous node = .ok app at h
      rw [addNode] at h
      cases hread : readSection node with
      | error fault =>
        rw [hread] at h
        cases h
      | ok part =>
        rw [hread] at h
        rw [sections_append, sections_singleton hread]
        exact addSection_composed (ih hbefore) h

/-- There is an application exactly if the document is sound. -/
theorem exists_ofDocument_iff (standIn : String) :
    (∃ app, ofDocument standIn document = .ok app) ↔ Sound document := by
  induction document using List.reverseRecOn with
  | nil => exact ⟨fun _ => ⟨by simp, by simp [sections, processNames]⟩, fun _ => ⟨_, rfl⟩⟩
  | append_singleton before node ih =>
    rw [sound_concat_iff, ← ih, ofDocument_concat]
    cases hbefore : ofDocument standIn before with
    | error fault => simp [bind, Except.bind]
    | ok previous =>
      have hcomposed := composedOf_of_ofDocument hbefore
      show (∃ app, addNode previous node = .ok app) ↔ _
      simp only [← addNode_eq_error_iff hcomposed]
      cases addNode previous node <;> simp

/-- There is one application that a sound document declares, the one its sections make up. -/
theorem ofDocument_eq_ok_iff : ofDocument standIn document = .ok app ↔
    Sound document ∧ app.ComposedOf standIn (sections document) := by
  constructor
  · intro h
    exact ⟨(exists_ofDocument_iff standIn).1 ⟨app, h⟩, composedOf_of_ofDocument h⟩
  · rintro ⟨hsound, hcomposed⟩
    obtain ⟨app', h⟩ := (exists_ofDocument_iff standIn).2 hsound
    rw [h, (composedOf_of_ofDocument h).unique hcomposed]

end App

end ProcessPlan
