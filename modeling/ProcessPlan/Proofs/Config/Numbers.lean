import ProcessPlan.Proofs.Config.Described
import ProcessPlan.Proofs.Config.Positions

/-!
# Numbers of an application

Each number of an application has an address, and for each address there is one place in the
document whose number counts: of settings that replace each other it is that of the last, and of
those that add up it is found by counting. The number of the application is the very integer that
stands there. Where none stands there, there is no number, but for the version of an application and
the port of a probe, which have one of their own. Numbers that do not count have to be in range all
the same.

## Main definitions

* `NumberField`: the addresses of numbers
* `App.number?`, `NumberField.source?`: the number of an application, and the value that it is read
  from
* `NumberFrom`: a number is the integer of a value, or stands in for a missing one

## Main results

* `Config.flatMap_sections_eq`: what the sections of a kind show is what their nodes do
* `App.numberFrom_of_ofDocument`: every number of an application is read from its place
* `Config.sectionReads_of_source?`: every such place has its range
* `App.numbers_exact`: no number is altered on its way from a document
-/

namespace ProcessPlan

open Kdl (Node Value Document)
open Config

/-- A number is the integer of a value. Where there is no value there is no number either, or the
one that stands in for it. -/
inductive NumberFrom (standIn : Option Int) : Option Value → Option Int → Prop where
  | read (n : Int) : NumberFrom standIn (some (.int n)) (some n)
  | standIn {n : Int} (h : standIn = some n) : NumberFrom standIn none (some n)
  | absent : NumberFrom standIn none none

theorem NumberFrom.of_map_eq {standIn number : Option Int} {source : Option Value}
    (h : number.map Value.int = source) : NumberFrom standIn source number := by
  subst h
  cases number with
  | none => exact .absent
  | some n => exact .read n

theorem NumberFrom.eq_some {standIn number : Option Int} {n : Int}
    (h : NumberFrom standIn (some (.int n)) number) : number = some n := by
  cases h
  rfl

theorem NumberFrom.bind {α β : Type} {R : α → β → Prop} {standIn : Option Int} {source : Option α}
    {o : Option β} {view : α → Option Value} {shown : β → Option Int} (h : Option.Rel R source o)
    (hshown : ∀ a b, R a b → NumberFrom standIn (view a) (shown b)) :
    NumberFrom standIn (source.bind view) (o.bind shown) := by
  cases h with
  | none => exact .absent
  | some hb => exact hshown _ _ hb

/-! ### Ports -/

/-- The numbers of a port. -/
inductive PortNumber where
  | published
  | target
deriving DecidableEq

/-- A number of a port. -/
def PortDeclaration.number? (d : PortDeclaration) : PortNumber → Option Int
  | .published => some d.number.toNat
  | .target => d.target.map fun port => port.toNat

/-- The value that a number of a port is read from. -/
def Config.portSource? (node : Node) : PortNumber → Option Value
  | .published => (node.property? "port").or node.argument?
  | .target => (node.property? "target").or (node.property? "target_port")

theorem Config.number?_of_readPortDeclaration {node : Node} {d : PortDeclaration}
    (h : readPortDeclaration node = .ok d) (number : PortNumber) :
    (d.number? number).map Value.int = portSource? node number := by
  obtain ⟨hnumber, htarget⟩ := numbers_of_readPortDeclaration h
  cases number with
  | published => exact hnumber.symm
  | target =>
    rw [PortDeclaration.number?, Option.map_map]
    exact htarget

/-! ### Probes -/

/-- The numbers of a probe. -/
inductive ProbeNumber where
  | port
  | count (field : ProbeCount)
deriving DecidableEq

/-- A number of a probe. -/
def Probe.number? (probe : Probe) : ProbeNumber → Option Int
  | .port => probe.action.port?.map fun port => port.toNat
  | .count field => (probe.count field).map fun n => n.toNat

/-- The value that a number of a probe is read from: the last action and the last node for a count
are those that matter. -/
def Config.probeSource? (block : List Node) : ProbeNumber → Option Value
  | .port => (probeActionNodes block).getLast?.bind fun node =>
      if ActionKind.ofName? node.name = some .exec then none else node.property? "port"
  | .count field => (countNodes field block).getLast?.bind Node.argument?

/-- The range of a number of a probe. -/
def ProbeNumber.range : ProbeNumber → NumberRange
  | port => .port
  | count _ => .count

/-- The number that stands in for one that a probe does not give: port zero. -/
def ProbeNumber.standIn : ProbeNumber → Option Int
  | port => some 0
  | count _ => none

theorem Config.PortOf.numberFrom {node : Node} {port : UInt16} (h : PortOf node port) :
    NumberFrom (some 0) (node.property? "port") (some port.toNat) := by
  rw [PortOf] at h
  cases hvalue : node.property? "port" with
  | none =>
    rw [hvalue] at h
    exact .standIn (congrArg some (Value.int.inj h))
  | some value =>
    rw [hvalue, Option.getD_some] at h
    rw [h]
    exact .read _

/-- The numbers of the probe that a block describes are read from their places in it. -/
theorem Probe.SetBy.numberFrom {block : List Node} {probe : Probe} (h : probe.SetBy block)
    (number : ProbeNumber) :
    NumberFrom number.standIn (probeSource? block number) (probe.number? number) := by
  cases number with
  | port =>
    obtain ⟨node, hnode, haction⟩ := h.action
    rw [probeSource?, hnode, Option.bind_some, number?]
    generalize probe.action = action at haction
    cases haction with
    | httpGet hkind hport =>
      rw [if_neg (by simp [hkind])]
      exact hport.numberFrom
    | tcpSocket hkind hport =>
      rw [if_neg (by simp [hkind])]
      exact hport.numberFrom
    | exec hkind =>
      rw [if_pos hkind]
      exact .absent
  | count field =>
    refine .of_map_eq ?_
    rw [probeSource?, number?, Option.map_map, Option.map_eq_bind]
    exact bind_eq_of_rel (h.counts field) fun _ _ hcount => hcount.symm

/-! ### Processes -/

/-- The numbers of a process. -/
inductive ProcessNumber where
  | units
  | runAsUser
  | runAsGroup
  | hookPort (moment : HookMoment)
deriving DecidableEq

/-- The port of a hook, if it goes to one. -/
def HookAction.port? : HookAction → Option UInt16
  | .exec _ => none
  | .httpGet _ port => some port

/-- A number of a process. -/
def ProcessSpec.number? (spec : ProcessSpec) : ProcessNumber → Option Int
  | .units => spec.units.map fun count => count.toNat
  | .runAsUser => (spec.securityContext.bind (·.runAsUser)).map Int64.toInt
  | .runAsGroup => (spec.securityContext.bind (·.runAsGroup)).map Int64.toInt
  | .hookPort moment => ((spec.lifecycle.bind (hookAt · moment)).bind HookAction.port?).map
      fun port => port.toNat

/-- The range of a number of a process. -/
def ProcessNumber.range : ProcessNumber → NumberRange
  | units => .count
  | runAsUser => .signed
  | runAsGroup => .signed
  | hookPort _ => .port

/-- The value that a number of a process is read from: the last setting of its kind matters. -/
def Config.processSource? (node : Node) : ProcessNumber → Option Value
  | .units => ((settingNodes .units node.childNodes).filterMap Node.argument?).getLast?
  | .runAsUser => (settingNodes .securityContext node.childNodes).getLast?.bind
      (·.property? "run-as-user")
  | .runAsGroup => (settingNodes .securityContext node.childNodes).getLast?.bind
      (·.property? "run-as-group")
  | .hookPort moment => (settingBlocks .lifecycle node.childNodes).getLast?.bind fun block =>
      (actionNodes moment block).getLast?.bind fun node =>
        if node.name = "exec" then none else node.property? "port"

namespace Config

variable {node : Node}

/-- A hook has a port exactly if it is not a command, and then the one that stands there. -/
theorem port?_of_readHookAction {action : HookAction}
    (h : readHookAction node = .ok (some action)) :
    (action.port?.map fun port => Value.int port.toNat)
      = if node.name = "exec" then none else node.property? "port" := by
  by_cases hget : node.name ∈ ["http-get", "http_get"]
  · obtain ⟨path, port, hport, haction⟩ := exists_port_of_readHookAction h hget
    cases haction
    have hexec : node.name ≠ "exec" := fun heq => by simp [heq] at hget
    rw [hport, if_neg hexec]
    rfl
  · unfold readHookAction at h
    split at h
    · next hexec =>
      cases h
      rw [if_pos hexec]
      rfl
    · next hname => simp [hname] at hget
    · next hname => simp [hname] at hget
    · cases h

theorem hookPort_of_hooksOf {block : List Node} {hooks : Lifecycle} (h : HooksOf block hooks)
    (moment : HookMoment) :
    ((hookAt hooks moment).bind fun action => action.port?.map fun port => Value.int port.toNat)
      = (actionNodes moment block).getLast?.bind fun node =>
        if node.name = "exec" then none else node.property? "port" := by
  have hread : Option.Rel (fun node action => readHookAction node = .ok (some action))
      (actionNodes moment block).getLast? (hookAt hooks moment) :=
    rel_of_map_eq (h moment) fun _ _ => Eq.symm
  exact bind_eq_of_rel hread fun _ _ => port?_of_readHookAction

/-- The numbers of a process are the integers that stand in their places. -/
theorem number?_of_readProcess {spec : ProcessSpec} (h : readProcess node = .ok spec)
    (number : ProcessNumber) :
    (spec.number? number).map Value.int = processSource? node number := by
  have hcontext : Option.Rel (fun node context => readSecurityContext node = .ok context)
      (settingNodes .securityContext node.childNodes).getLast? spec.securityContext :=
    rel_of_map_eq (securityContext_of_readProcess h) fun _ _ => Eq.symm
  cases number with
  | units =>
    rw [ProcessSpec.number?, Option.map_map]
    exact units_eq_of_readProcess h
  | runAsUser =>
    rw [ProcessSpec.number?, Option.map_map, Option.map_bind]
    exact bind_eq_of_rel hcontext fun _ _ hread => (numbers_of_readSecurityContext hread).1
  | runAsGroup =>
    rw [ProcessSpec.number?, Option.map_map, Option.map_bind]
    exact bind_eq_of_rel hcontext fun _ _ hread => (numbers_of_readSecurityContext hread).2
  | hookPort moment =>
    rw [ProcessSpec.number?, Option.map_map, Option.bind_assoc, Option.map_bind]
    refine bind_eq_of_rel (setBy_of_readProcess h).lifecycle fun block hooks hhooks => ?_
    rw [Function.comp_apply, Option.map_bind]
    exact hookPort_of_hooksOf hhooks moment

end Config

/-! ### Applications -/

/-- The addresses of the numbers of an application. -/
inductive NumberField where
  | appVersion
  | port (process : String) (index : Nat) (number : PortNumber)
  | exposedPort (index : Nat)
  | probe (kind : ProbeKind) (number : ProbeNumber)
  | process (index : Nat) (number : ProcessNumber)
  | itemVersion (kind : MetadataKind) (index : Nat)
deriving DecidableEq

/-- The number at an address of an application. -/
def App.number? (app : App) : NumberField → Option Int
  | .appVersion => some app.version.toNat
  | .port process index number =>
    ((app.ports.processes.find? process).getD [])[index]?.bind (·.number? number)
  | .exposedPort index => app.ports.exposed[index]?.map fun port => port.toNat
  | .probe kind number => (app.ports.healthcheck.ofKind kind).bind (·.number? number)
  | .process index number => app.processes[index]?.bind (·.number? number)
  | .itemVersion kind index =>
    (app.items kind)[index]?.bind fun item => item.version.map fun version => version.toNat

namespace Config

/-- The nodes of a section that declare a port of a process, in all listings of the process. -/
def listedPorts (process : String) (node : Node) : List Node :=
  (node.childNodes.filter fun child =>
    child.name = "process" ∧ child.argumentText? = some process).flatMap fun child =>
      child.childNodes.filter (·.name = "port")

/-- The nodes that declare a port of a process. -/
def portNodes (process : String) (document : Document) : List Node :=
  (ofKind .ports document).flatMap (listedPorts process)

/-- The block of the probe of a kind: it is the last one in the last healthcheck. -/
def probeBlock? (kind : ProbeKind) (document : Document) : Option (List Node) :=
  (ofKind .healthcheck document).getLast?.bind fun node =>
    (node.childNodes.filter (·.name = kind.name)).getLast?.bind Node.children

/-- The nodes that declare an item of a kind. -/
def itemNodes (kind : MetadataKind) (document : Document) : List Node :=
  (ofKind (.ofItems kind) document).flatMap fun node => node.childNodes.filter (·.name = "item")

end Config

namespace NumberField

/-- The value that the number at an address is read from. -/
def source? (document : Document) : NumberField → Option Value
  | appVersion => ((ofKind .app document).filterMap (·.property? "version")).getLast?
  | port name index number => (portNodes name document)[index]?.bind (portSource? · number)
  | exposedPort index => ((ofKind .exposedPorts document).flatMap Node.arguments)[index]?
  | probe kind number => (probeBlock? kind document).bind (probeSource? · number)
  | process index number => (ofKind .process document)[index]?.bind (processSource? · number)
  | itemVersion kind index => (itemNodes kind document)[index]?.bind (·.property? "version")

/-- The range of the number at an address. -/
def range : NumberField → NumberRange
  | appVersion => .count
  | port _ _ _ => .port
  | exposedPort _ => .port
  | probe _ number => number.range
  | process _ number => number.range
  | itemVersion _ _ => .count

/-- The number that stands in for one that is not given: the first version, and port zero of a
probe. -/
def standIn : NumberField → Option Int
  | appVersion => some 1
  | probe _ number => number.standIn
  | _ => none

end NumberField

namespace Config

variable {document : Document}

/-- What the sections of a sound document show in one of their parts is what the nodes of the kind
do that the part is about. -/
theorem flatMap_sections_eq {β γ : Type} {say : Section → List β} {shown : β → γ}
    {view : Node → List γ} (kind : SectionKind) (hsound : Sound document)
    (hother : ∀ part : Section, part.kind? ≠ some kind → say part = [])
    (hview : ∀ node part, SectionKind.ofName? node.name = some kind →
      readSection node = .ok part → (say part).map shown = view node) :
    ((sections document).flatMap say).map shown = (ofKind kind document).flatMap view := by
  have hread : ∀ node ∈ ofKind kind document,
      ∃ part, readSection node = .ok part ∧ (say part).map shown = view node := by
    intro node hnode
    obtain ⟨hmem, hkind⟩ := List.mem_filter.1 hnode
    have hkind : SectionKind.ofName? node.name = some kind := of_decide_eq_true hkind
    obtain ⟨part, hpart⟩ := hsound.readable node hmem (by rw [hkind]; rfl)
    exact ⟨part, hpart, hview node part hkind hpart⟩
  -- Sections of other kinds say nothing, so only the nodes of this kind have to be gone through.
  rw [← flatMap_sections_ofKind kind hother document]
  generalize ofKind kind document = nodes at hread
  induction nodes with
  | nil => rfl
  | cons node rest ih =>
    obtain ⟨⟨part, hpart, hshown⟩, hrest⟩ := List.forall_mem_cons.1 hread
    rw [← List.singleton_append, sections_append, sections_singleton hpart, List.flatMap_append,
      List.map_append, List.flatMap_singleton, hshown, ih hrest, List.flatMap_append,
      List.flatMap_singleton]

/-- The numbers of the ports of a process stand in the nodes that declare them. -/
theorem numbers_of_readProcessPorts {node : Node} {listings : List (String × List PortDeclaration)}
    (h : readProcessPorts node = .ok listings) (process : String) (number : PortNumber) :
    ((listings.filter (·.1 = process)).flatMap (·.2)).map
        (fun d => (d.number? number).map Value.int)
      = (listedPorts process node).map (portSource? · number) := by
  have hlisting (child : Node) (listing : String × List PortDeclaration)
      (hread : readPortsOfProcess child = .ok listing) :
      child.argumentText? = some listing.1 ∧
        listing.2.map (fun d => (d.number? number).map Value.int)
          = (child.childNodes.filter (·.name = "port")).map (portSource? · number) := by
    obtain ⟨name, hname, hread⟩ := bind_eq_ok_iff.1 hread
    obtain ⟨ds, hds, hread⟩ := bind_eq_ok_iff.1 hread
    cases hread
    exact ⟨readName_eq_ok_iff.1 hname,
      map_eq_of_mapM hds fun _ _ hd => number?_of_readPortDeclaration hd number⟩
  -- A listing is one of the process exactly if its node names the process.
  have hnamed := mapM_filter_of_mapM (p := fun child => child.argumentText? = some process)
    (q := (·.1 = process)) h fun child listing hread => by simp [(hlisting child listing hread).1]
  rw [List.filter_filter] at hnamed
  rw [listedPorts, List.map_flatMap, List.map_flatMap, List.flatMap_def, List.flatMap_def,
    map_eq_of_mapM hnamed fun child listing hread => (hlisting child listing hread).2]
  simp [Bool.and_comm]

theorem getD_declaredFor (process : String) (listings : List (String × List PortDeclaration)) :
    (declaredFor process listings).getD []
      = (listings.filter (·.1 = process)).flatMap (·.2) := by
  unfold declaredFor
  split
  · next hnone =>
    rw [hnone]
    rfl
  · rfl

theorem mem_ofKind {node : Node} {kind : SectionKind} :
    node ∈ ofKind kind document ↔ node ∈ document ∧ SectionKind.ofName? node.name = some kind := by
  simp [ofKind]

end Config

/-! ### Every number of an application -/

namespace App

variable {standIn : String} {document : Document} {app : App}

theorem version_of_ofDocument (h : ofDocument standIn document = .ok app) :
    NumberFrom (some 1) ((ofKind .app document).filterMap (·.property? "version")).getLast?
      (some app.version.toNat) := by
  obtain ⟨hsound, hcomposed⟩ := ofDocument_eq_ok_iff.1 h
  have hversions : ((sections document).flatMap Section.versions).map
      (fun version => Value.int version.toNat)
        = (ofKind .app document).filterMap (·.property? "version") := by
    rw [List.filterMap_eq_flatMap_toList]
    refine flatMap_sections_eq .app hsound (fun part hkind => ?_) fun node part hkind hpart => ?_
    · cases part with
      | app => exact absurd rfl hkind
      | _ => rfl
    · rw [readSection_eq, hkind] at hpart
      obtain ⟨name, version, rfl, hversion⟩ := version_of_readApp hpart
      rw [Section.versions, ← hversion, Option.toList_map]
  rw [hcomposed.version, ← hversions, List.getLast?_map]
  cases ((sections document).flatMap Section.versions).getLast? with
  | none => exact .standIn rfl
  | some version => exact .read _

theorem ports_of_ofDocument (h : ofDocument standIn document = .ok app) (process : String)
    (number : PortNumber) :
    ((app.ports.processes.find? process).getD []).map (fun d => (d.number? number).map Value.int)
      = (portNodes process document).map (portSource? · number) := by
  obtain ⟨hsound, hcomposed⟩ := ofDocument_eq_ok_iff.1 h
  rw [hcomposed.declared, getD_declaredFor, List.filter_flatMap, List.flatMap_assoc, portNodes]
  refine Eq.trans (flatMap_sections_eq .ports hsound (fun part hkind => ?_)
    fun node part hkind hpart => ?_) List.map_flatMap.symm
  · cases part with
    | ports => exact absurd rfl hkind
    | _ => rfl
  · rw [readSection_eq, hkind] at hpart
    obtain ⟨listings, hlistings, rfl⟩ := map_eq_ok_iff.1 hpart
    exact numbers_of_readProcessPorts hlistings process number

theorem exposed_of_ofDocument (h : ofDocument standIn document = .ok app) :
    app.ports.exposed.map (fun port => Value.int port.toNat)
      = (ofKind .exposedPorts document).flatMap Node.arguments := by
  obtain ⟨hsound, hcomposed⟩ := ofDocument_eq_ok_iff.1 h
  rw [hcomposed.exposed]
  refine flatMap_sections_eq .exposedPorts hsound (fun part hkind => ?_)
    fun node part hkind hpart => ?_
  · cases part with
    | exposedPorts => exact absurd rfl hkind
    | _ => rfl
  · rw [readSection_eq, hkind] at hpart
    obtain ⟨ports, hports, rfl⟩ := map_eq_ok_iff.1 hpart
    have hshown : ports.map (fun port => Value.int port.toNat) = node.arguments.map id :=
      map_eq_of_mapM hports fun _ _ hport => (readPort_eq_ok_iff.1 hport).symm
    rwa [List.map_id] at hshown

/-- The probes of an application are those of its last healthcheck. -/
theorem healthcheck_of_ofDocument (h : ofDocument standIn document = .ok app) :
    ∃ last, app.ports.healthcheck = last.getD .none ∧
      Option.Rel (fun node probes => readProbes node = .ok probes)
        (ofKind .healthcheck document).getLast? last := by
  obtain ⟨hsound, hcomposed⟩ := ofDocument_eq_ok_iff.1 h
  have hprobes : ((sections document).flatMap Section.healthchecks).map
      (fun probes => (.ok probes : Read Probes))
        = (ofKind .healthcheck document).map readProbes := by
    rw [List.map_eq_flatMap (l := ofKind .healthcheck document)]
    refine flatMap_sections_eq .healthcheck hsound (fun part hkind => ?_)
      fun node part hkind hpart => ?_
    · cases part with
      | healthcheck => exact absurd rfl hkind
      | _ => rfl
    · rw [readSection_eq, hkind] at hpart
      obtain ⟨probes, hprobes, rfl⟩ := map_eq_ok_iff.1 hpart
      rw [hprobes]
      rfl
  refine ⟨_, hcomposed.healthcheck, rel_of_map_eq ?_ fun _ _ => Eq.symm⟩
  rw [← List.getLast?_map, ← List.getLast?_map, hprobes]

theorem probe_of_ofDocument (h : ofDocument standIn document = .ok app) (kind : ProbeKind)
    (number : ProbeNumber) :
    NumberFrom number.standIn ((probeBlock? kind document).bind (probeSource? · number))
      ((app.ports.healthcheck.ofKind kind).bind (·.number? number)) := by
  obtain ⟨last, hhealthcheck, hlast⟩ := healthcheck_of_ofDocument h
  have hkind : (last.getD .none).ofKind kind = last.bind (·.ofKind kind) := by
    cases last with
    | none => cases kind <;> rfl
    | some probes => rfl
  -- The last healthcheck decides, and in it the last probe of the kind.
  rw [hhealthcheck, hkind, probeBlock?, Option.bind_assoc, Option.bind_assoc]
  refine .bind hlast fun node probes hread => ?_
  rw [Option.bind_assoc]
  refine .bind (setBy_of_readProbes hread kind) ?_
  rintro child probe ⟨block, hbody, hprobe⟩
  rw [hbody]
  exact hprobe.numberFrom number

theorem processes_of_ofDocument (h : ofDocument standIn document = .ok app)
    (number : ProcessNumber) :
    app.processes.map (fun spec => (spec.number? number).map Value.int)
      = (ofKind .process document).map (processSource? · number) := by
  obtain ⟨hsound, hcomposed⟩ := ofDocument_eq_ok_iff.1 h
  rw [hcomposed.processes, List.map_eq_flatMap (l := ofKind .process document)]
  refine flatMap_sections_eq .process hsound (fun part hkind => ?_) fun node part hkind hpart => ?_
  · cases part with
    | process => exact absurd rfl hkind
    | _ => rfl
  · rw [readSection_eq, hkind] at hpart
    obtain ⟨spec, hspec, rfl⟩ := map_eq_ok_iff.1 hpart
    exact congrArg (fun source => [source]) (number?_of_readProcess hspec number)

theorem items_of_ofDocument (h : ofDocument standIn document = .ok app) (kind : MetadataKind) :
    (app.items kind).map
        (fun item => (item.version.map fun version => (version.toNat : Int)).map Value.int)
      = (itemNodes kind document).map (·.property? "version") := by
  obtain ⟨hsound, hcomposed⟩ := ofDocument_eq_ok_iff.1 h
  rw [hcomposed.items, itemNodes]
  refine Eq.trans (flatMap_sections_eq (.ofItems kind) hsound (fun part hkind => ?_)
    fun node part hkind hpart => ?_) List.map_flatMap.symm
  · cases kind with
    | labels =>
      cases part with
      | labels => exact absurd rfl hkind
      | _ => rfl
    | annotations =>
      cases part with
      | annotations => exact absurd rfl hkind
      | _ => rfl
  · rw [readSection_of_items hkind] at hpart
    obtain ⟨items, hitems, rfl⟩ := map_eq_ok_iff.1 hpart
    rw [Section.items_ofItems]
    refine map_eq_of_mapM hitems fun node item hitem => ?_
    rw [Option.map_map]
    exact version_of_readItem hitem

/-- Every number of an application is the integer that stands in its place, and where nothing stands
there, there is none or the one that stands in. -/
theorem numberFrom_of_ofDocument (h : ofDocument standIn document = .ok app)
    (field : NumberField) :
    NumberFrom field.standIn (field.source? document) (app.number? field) := by
  cases field with
  | appVersion => exact version_of_ofDocument h
  | port process index number =>
    refine .of_map_eq ?_
    rw [number?, Option.map_bind]
    exact bind_getElem?_of_map_eq (ports_of_ofDocument h process number) index
  | exposedPort index =>
    refine .of_map_eq ?_
    rw [number?, NumberField.source?, Option.map_map, ← exposed_of_ofDocument h,
      List.getElem?_map]
    rfl
  | probe kind number => exact probe_of_ofDocument h kind number
  | process index number =>
    refine .of_map_eq ?_
    rw [number?, Option.map_bind]
    exact bind_getElem?_of_map_eq (processes_of_ofDocument h number) index
  | itemVersion kind index =>
    refine .of_map_eq ?_
    rw [number?, Option.map_bind]
    exact bind_getElem?_of_map_eq (items_of_ofDocument h kind) index

end App

/-! ### Every place of a number -/

namespace Config

variable {node : Node} {value : Value}

theorem mem_settingNodes {kind : SettingKind} {block : List Node} : node ∈ settingNodes kind block ↔
    node ∈ block ∧ SettingKind.ofName? node.name = some kind := by
  simp [settingNodes]

/-- An action of a hook is one of the nodes for its moment. -/
theorem mem_actionNodes {moment : HookMoment} {block : List Node} :
    node ∈ actionNodes moment block ↔
      (∃ hook ∈ block, HookMoment.ofName? hook.name = some moment ∧ node ∈ hook.childNodes) ∧
        node.name ∈ ["exec", "http-get", "http_get"] := by
  simp only [actionNodes, List.mem_filter, List.mem_flatMap, decide_eq_true_eq, and_assoc]

/-- What a number of a process is read from stands in a setting. -/
theorem settingReads_of_processSource? {number : ProcessNumber}
    (h : processSource? node number = some value) :
    ∃ child ∈ node.childNodes, SettingReads child number.range value := by
  cases number with
  | units =>
    obtain ⟨child, hchild, hvalue⟩ := List.mem_filterMap.1 (List.mem_of_getLast? h)
    obtain ⟨hmem, hkind⟩ := mem_settingNodes.1 hchild
    exact ⟨child, hmem, .units hkind hvalue⟩
  | runAsUser =>
    obtain ⟨child, hchild, hvalue⟩ := Option.bind_eq_some_iff.1 h
    obtain ⟨hmem, hkind⟩ := mem_settingNodes.1 (List.mem_of_getLast? hchild)
    exact ⟨child, hmem, .runAsUser hkind hvalue⟩
  | runAsGroup =>
    obtain ⟨child, hchild, hvalue⟩ := Option.bind_eq_some_iff.1 h
    obtain ⟨hmem, hkind⟩ := mem_settingNodes.1 (List.mem_of_getLast? hchild)
    exact ⟨child, hmem, .runAsGroup hkind hvalue⟩
  | hookPort moment =>
    obtain ⟨block, hblock, h⟩ := Option.bind_eq_some_iff.1 h
    obtain ⟨action, haction, h⟩ := Option.bind_eq_some_iff.1 h
    obtain ⟨child, hchild, hbody⟩ := List.mem_filterMap.1 (List.mem_of_getLast? hblock)
    obtain ⟨hmem, hkind⟩ := mem_settingNodes.1 hchild
    obtain ⟨⟨hook, hhook, hmoment, hbelow⟩, hname⟩ :=
      mem_actionNodes.1 (List.mem_of_getLast? haction)
    obtain ⟨hexec, hvalue⟩ := Option.ite_none_left_eq_some.1 h
    refine ⟨child, hmem, .hookPort hkind ?_ (Option.isSome_of_eq_some hmoment) hbelow
      ((List.mem_cons.1 hname).resolve_left hexec) hvalue⟩
    rw [Node.childNodes, hbody]
    exact hhook

variable {document : Document}

/-- What a number of a port is read from stands in a section. -/
theorem sectionReads_of_portSource? {process : String} {port : Node} {number : PortNumber}
    (hport : port ∈ portNodes process document) (h : portSource? port number = some value) :
    ∃ node ∈ document, SectionReads node .port value := by
  obtain ⟨node, hnode, hlisted⟩ := List.mem_flatMap.1 hport
  obtain ⟨hmem, hkind⟩ := mem_ofKind.1 hnode
  obtain ⟨child, hchild, hport⟩ := List.mem_flatMap.1 hlisted
  obtain ⟨hblock, hname⟩ := List.mem_filter.1 hchild
  obtain ⟨hprocess, -⟩ := of_decide_eq_true hname
  obtain ⟨hport, hname⟩ := List.mem_filter.1 hport
  have hname : port.name = "port" := of_decide_eq_true hname
  cases number with
  | published => exact ⟨node, hmem, .servicePort hkind hblock hprocess hport hname h⟩
  | target => exact ⟨node, hmem, .targetPort hkind hblock hprocess hport hname h⟩

/-- What a number of a probe is read from stands in a section. -/
theorem sectionReads_of_probeSource? {kind : ProbeKind} {block : List Node} {number : ProbeNumber}
    (hblock : probeBlock? kind document = some block)
    (h : probeSource? block number = some value) :
    ∃ node ∈ document, SectionReads node number.range value := by
  obtain ⟨node, hnode, hlast⟩ := Option.bind_eq_some_iff.1 hblock
  obtain ⟨hmem, hkind⟩ := mem_ofKind.1 (List.mem_of_getLast? hnode)
  obtain ⟨check, hcheck, hbody⟩ := Option.bind_eq_some_iff.1 hlast
  obtain ⟨hcheck, hname⟩ := List.mem_filter.1 (List.mem_of_getLast? hcheck)
  have hprobe : check.name ∈ probeKinds := of_decide_eq_true hname ▸ name_mem_probeKinds kind
  have hbelow : check.childNodes = block := by rw [Node.childNodes, hbody, Option.getD_some]
  cases number with
  | port =>
    obtain ⟨action, haction, h⟩ := Option.bind_eq_some_iff.1 h
    obtain ⟨haction, hname⟩ := List.mem_filter.1 (List.mem_of_getLast? haction)
    obtain ⟨actionKind, hactionKind⟩ := Option.isSome_iff_exists.1 hname
    obtain ⟨hexec, hvalue⟩ := Option.ite_none_left_eq_some.1 h
    rw [hactionKind, Option.some.injEq] at hexec
    exact ⟨node, hmem, .probePort hkind hcheck hprobe (hbelow ▸ haction)
      (ActionKind.exists_ofName?_iff.1 ⟨actionKind, hactionKind, hexec⟩) hvalue⟩
  | count field =>
    obtain ⟨setting, hsetting, hvalue⟩ := Option.bind_eq_some_iff.1 h
    obtain ⟨hsetting, hname⟩ := List.mem_filter.1 (List.mem_of_getLast? hsetting)
    exact ⟨node, hmem, .probeCount hkind hcheck hprobe (hbelow ▸ hsetting)
      (ProbeCount.exists_ofName?_iff.1 ⟨field, of_decide_eq_true hname⟩) hvalue⟩

/-- What a number of an application is read from stands in a section, in a place with its range. -/
theorem sectionReads_of_source? {field : NumberField} (h : field.source? document = some value) :
    ∃ node ∈ document, SectionReads node field.range value := by
  cases field with
  | appVersion =>
    obtain ⟨node, hnode, hvalue⟩ := List.mem_filterMap.1 (List.mem_of_getLast? h)
    obtain ⟨hmem, hkind⟩ := mem_ofKind.1 hnode
    exact ⟨node, hmem, .appVersion hkind hvalue⟩
  | port process index number =>
    obtain ⟨port, hport, hvalue⟩ := Option.bind_eq_some_iff.1 h
    exact sectionReads_of_portSource? (List.mem_of_getElem? hport) hvalue
  | exposedPort index =>
    obtain ⟨node, hnode, hvalue⟩ := List.mem_flatMap.1 (List.mem_of_getElem? h)
    obtain ⟨hmem, hkind⟩ := mem_ofKind.1 hnode
    exact ⟨node, hmem, .exposedPort hkind hvalue⟩
  | probe kind number =>
    obtain ⟨block, hblock, hvalue⟩ := Option.bind_eq_some_iff.1 h
    exact sectionReads_of_probeSource? hblock hvalue
  | process index number =>
    obtain ⟨node, hnode, hvalue⟩ := Option.bind_eq_some_iff.1 h
    obtain ⟨hmem, hkind⟩ := mem_ofKind.1 (List.mem_of_getElem? hnode)
    obtain ⟨child, hchild, hreads⟩ := settingReads_of_processSource? hvalue
    exact ⟨node, hmem, .setting hkind hchild hreads⟩
  | itemVersion kind index =>
    obtain ⟨item, hitem, hvalue⟩ := Option.bind_eq_some_iff.1 h
    obtain ⟨node, hnode, hitem⟩ := List.mem_flatMap.1 (List.mem_of_getElem? hitem)
    obtain ⟨hmem, hkind⟩ := mem_ofKind.1 hnode
    obtain ⟨hitem, hname⟩ := List.mem_filter.1 hitem
    exact ⟨node, hmem, .itemVersion hkind hitem (of_decide_eq_true hname) hvalue⟩

end Config

/-! ### From documents to applications -/

namespace App

/-- **Numbers are exact.** Every number of an application that a document declares is the very
integer that stands in its place there, and where nothing stands there, there is no number, but for
version 1 and port zero of a probe. A document with any number out of the range of its place, or
something else than an integer there, declares no application, also where a later number takes its
place. The places that numbers are read from are among those, each with the range of the number. The
application of a text is that of its document. -/
theorem numbers_exact (standIn : String) (document : Document) :
    (∀ app, ofDocument standIn document = .ok app →
      ∀ field : NumberField,
        NumberFrom field.standIn (field.source? document) (app.number? field)) ∧
    (∀ node ∈ document, ∀ range value, SectionReads node range value → ¬ range.Admits value →
      ∃ fault, ofDocument standIn document = .error fault) ∧
    (∀ (field : NumberField) value, field.source? document = some value →
      ∃ node ∈ document, SectionReads node field.range value) ∧
    ∀ text, Document.ofText? text = some document →
      ofText standIn text = (ofDocument standIn document).mapError .badConfig := by
  refine ⟨fun app h field => numberFrom_of_ofDocument h field, ?_,
    fun field value h => sectionReads_of_source? h, fun text htext => ?_⟩
  · intro node hnode range value hreads hrange
    exact exists_error_of_not_admits standIn hnode hreads hrange
  · rw [ofText, htext]

/-- A process with units that later ones take the place of, and with the least user. -/
def replaced (value : Value) : Document :=
  [⟨"process", [⟨none, .text "web"⟩], some
    [⟨"units", [⟨none, value⟩], none⟩, ⟨"units", [⟨none, .int 2⟩], none⟩,
      ⟨"security-context", [⟨some "run-as-user", .int (-9223372036854775808)⟩], none⟩]⟩]

/-- The later units and the user are read as they stand there, and the earlier units have to be in
range: the number 80.0 is no integer. -/
theorem numbers_exact_replaced :
    (∃ app, ofDocument "shop" (replaced (.int 4294967295)) = .ok app ∧
      app.number? (.process 0 .units) = some 2 ∧
      app.number? (.process 0 .runAsUser) = some (-9223372036854775808)) ∧
    ∀ value ∈ [.int 4294967296, .int (-1), .real (.ofDecimal false 80 0)],
      ∃ fault, ofDocument "shop" (replaced value) = .error fault := by
  constructor
  · obtain ⟨hexact, -⟩ := numbers_exact "shop" (replaced (.int 4294967295))
    obtain ⟨app, happ⟩ : ∃ app, ofDocument "shop" (replaced (.int 4294967295)) = .ok app :=
      ⟨_, rfl⟩
    exact ⟨app, happ, (hexact app happ (.process 0 .units)).eq_some,
      (hexact app happ (.process 0 .runAsUser)).eq_some⟩
  · intro value hvalue
    obtain ⟨-, hfails, -⟩ := numbers_exact "shop" (replaced value)
    refine hfails _ (.head _) .count value (.setting rfl (.head _) (.units rfl rfl)) ?_
    rintro ⟨n, rfl, hleast, hgreatest⟩
    simp only [List.mem_cons, Value.int.injEq, reduceCtorEq, List.not_mem_nil, or_false] at hvalue
    omega

end App

end ProcessPlan
