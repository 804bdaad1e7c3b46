import ProcessPlan.Config.Healthcheck
import ProcessPlan.Proofs.App.Declared
import ProcessPlan.Proofs.Config.Scalar
import ProcessPlan.Proofs.Last

/-!
# The probes of a healthcheck

Every node in the block of a probe is read, also where a later one takes its place, so a probe can
be read exactly if its block has an action and all numbers in it are in their ranges. The probe then
has the last action and the last number of each count, and a healthcheck the last probe of each
kind. An action without a port is read as one with port zero: that is refused later, where the
probes are asked for, so it never gets into a descriptor.

## Main definitions

* `Config.ActionOf`: the action that a node describes
* `Config.CompleteProbe`, `Config.CompleteHealthcheck`: blocks and sections that can be read
* `Probe.SetBy`, `Probes.SetBy`: the probe and the probes that they describe

## Main results

* `Config.readProbe_eq_ok_iff`: what a probe is read as
* `DeclaredPorts.probes_of_portZero`, `App.port_ne_zero_of_buildProcess`: what becomes of port zero
* `Config.readProbes_setBy`: what a healthcheck is read as
-/

namespace ProcessPlan

namespace Config

open Kdl (Node Value)

variable {node : Node}

/-! ### Actions -/

/-- The kinds of action of a probe. -/
inductive ActionKind where
  | httpGet
  | tcpSocket
  | exec
deriving DecidableEq

/-- The kind of action that a node of a name is, in either spelling. -/
def ActionKind.ofName? : String → Option ActionKind
  | "http-get" | "http_get" => some .httpGet
  | "tcp-socket" | "tcp_socket" => some .tcpSocket
  | "exec" => some .exec
  | _ => none

/-- How a node is read depends on its name only through the kind of its action. -/
theorem readProbeAction?_eq (node : Node) :
    readProbeAction? node = match ActionKind.ofName? node.name with
      | some .httpGet => some ((readActionPort "http-get port" node).map fun port =>
          .httpGet ((node.propertyText? "path").getD "/") port (node.propertyText? "scheme"))
      | some .tcpSocket => some ((readActionPort "tcp-socket port" node).map .tcpSocket)
      | some .exec => some (.ok (.exec node.argumentTexts))
      | none => none := by
  unfold readProbeAction? ActionKind.ofName?
  generalize node.name = name
  split
  case h_6 => simp
  all_goals rfl

/-- The names of actions with a port. -/
theorem ActionKind.exists_ofName?_iff {name : String} :
    (∃ kind, ActionKind.ofName? name = some kind ∧ kind ≠ .exec) ↔
      name ∈ ["http-get", "http_get", "tcp-socket", "tcp_socket"] := by
  unfold ActionKind.ofName?
  split
  case h_6 => simp_all
  all_goals simp

/-- The names of counts. -/
theorem ProbeCount.exists_ofName?_iff {name : String} :
    (∃ count, ProbeCount.ofName? name = some count) ↔
      name ∈ ["initial-delay", "initial_delay", "period", "timeout", "success-threshold",
        "success_threshold", "failure-threshold", "failure_threshold"] := by
  unfold ProbeCount.ofName?
  split
  case h_9 => simp_all
  all_goals simp

theorem ActionKind.ofName?_eq_none_of_count {name : String} {field : ProbeCount}
    (h : ProbeCount.ofName? name = some field) : ActionKind.ofName? name = none := by
  unfold ProbeCount.ofName? at h
  split at h
  case h_9 => cases h
  all_goals rfl

/-- The port of an action is that of the property, and zero without one. -/
def PortOf (node : Node) (port : UInt16) : Prop :=
  (node.property? "port").getD (.int 0) = .int port.toNat

theorem readActionPort_eq_ok_iff {field : String} {port : UInt16} :
    readActionPort field node = .ok port ↔ PortOf node port := by
  rw [readActionPort, PortOf, map_eq_ok_iff]
  cases node.property? "port" with
  | none =>
    have hzero : (0 : UInt16) = port ↔ Value.int 0 = .int port.toNat := by
      rw [Value.int.injEq, ← UInt16.toNat_inj]
      exact Int.ofNat_inj.symm
    simpa [optional] using hzero
  | some value => simp [optional, map_eq_ok_iff, readPort_eq_ok_iff]

theorem exists_readActionPort_iff {field : String} :
    (∃ port, readActionPort field node = .ok port) ↔
      ∀ value, node.property? "port" = some value → IsBelow 65536 value := by
  rw [readActionPort]
  cases node.property? "port" with
  | none => simp [optional, map_eq_ok_iff]
  | some value =>
    have hread : (∃ port, readPort field value = .ok port) ↔ IsBelow 65536 value :=
      exists_readPort_eq_ok_iff
    simp [optional, map_eq_ok_iff, ← hread]

/-- The action that a node describes. -/
inductive ActionOf (node : Node) : ProbeAction → Prop where
  | httpGet {port : UInt16} (kind : ActionKind.ofName? node.name = some .httpGet)
      (number : PortOf node port) : ActionOf node
        (.httpGet ((node.propertyText? "path").getD "/") port (node.propertyText? "scheme"))
  | tcpSocket {port : UInt16} (kind : ActionKind.ofName? node.name = some .tcpSocket)
      (number : PortOf node port) : ActionOf node (.tcpSocket port)
  | exec (kind : ActionKind.ofName? node.name = some .exec) :
    ActionOf node (.exec node.argumentTexts)

theorem readProbeAction?_eq_ok_iff {action : ProbeAction} :
    readProbeAction? node = some (.ok action) ↔ ActionOf node action := by
  rw [readProbeAction?_eq]
  constructor
  · intro h
    split at h
    · next hkind =>
      obtain ⟨port, hport, rfl⟩ := map_eq_ok_iff.1 (Option.some.inj h)
      exact .httpGet hkind (readActionPort_eq_ok_iff.1 hport)
    · next hkind =>
      obtain ⟨port, hport, rfl⟩ := map_eq_ok_iff.1 (Option.some.inj h)
      exact .tcpSocket hkind (readActionPort_eq_ok_iff.1 hport)
    · next hkind =>
      cases h
      exact .exec hkind
    · cases h
  · rintro (⟨hkind, hport⟩ | ⟨hkind, hport⟩ | hkind)
    all_goals rw [hkind]
    · exact congrArg some (map_eq_ok_iff.2 ⟨_, readActionPort_eq_ok_iff.2 hport, rfl⟩)
    · exact congrArg some (map_eq_ok_iff.2 ⟨_, readActionPort_eq_ok_iff.2 hport, rfl⟩)

theorem isSome_readProbeAction? (node : Node) :
    (readProbeAction? node).isSome = (ActionKind.ofName? node.name).isSome := by
  rw [readProbeAction?_eq]
  cases ActionKind.ofName? node.name with
  | none => rfl
  | some kind => cases kind <;> rfl

/-! ### Settings -/

/-- All numbers that a node of a probe gives are in the ranges of their fields. One that sets a
count has to give it. -/
structure NumbersInRange (node : Node) : Prop where
  port : ∀ kind value, ActionKind.ofName? node.name = some kind → kind ≠ .exec →
    node.property? "port" = some value → IsBelow 65536 value
  count : ∀ field, ProbeCount.ofName? node.name = some field →
    ∃ value, node.argument? = some value ∧ IsBelow 4294967296 value

/-- What a node in the block of a probe is read as. A node that sets nothing is none. -/
inductive ProbeReadAs (node : Node) : Option ProbeSetting → Prop where
  | action {action : ProbeAction} (read : ActionOf node action) :
    ProbeReadAs node (some (.action action))
  | count {field : ProbeCount} {n : UInt32} (kind : ProbeCount.ofName? node.name = some field)
      (value : node.argument? = some (.int n.toNat)) : ProbeReadAs node (some (.count field n))
  | unknown (action : ActionKind.ofName? node.name = none)
      (count : ProbeCount.ofName? node.name = none) : ProbeReadAs node none

variable {kind : String} {setting : Option ProbeSetting}

theorem probeReadAs_of_readProbeSetting (h : readProbeSetting kind node = .ok setting) :
    ProbeReadAs node setting := by
  rw [readProbeSetting] at h
  cases haction : readProbeAction? node with
  | some read =>
    rw [haction] at h
    obtain ⟨action, rfl, rfl⟩ := map_eq_ok_iff.1 h
    exact .action (readProbeAction?_eq_ok_iff.1 haction)
  | none =>
    have hkind := isSome_readProbeAction? node
    rw [haction, Option.isSome_none, eq_comm, Option.isSome_eq_false_iff, Option.isNone_iff_eq_none]
      at hkind
    rw [haction] at h
    cases hcount : ProbeCount.ofName? node.name with
    | none =>
      rw [hcount] at h
      cases h
      exact .unknown hkind hcount
    | some field =>
      rw [hcount] at h
      cases hvalue : node.argument? with
      | none =>
        rw [hvalue] at h
        cases h
      | some value =>
        rw [hvalue] at h
        obtain ⟨n, hread, rfl⟩ := map_eq_ok_iff.1 h
        exact .count hcount (hvalue.trans (congrArg some (readCount_eq_ok_iff.1 hread)))

theorem ActionOf.kind_ne_none {action : ProbeAction} (h : ActionOf node action) :
    ActionKind.ofName? node.name ≠ none := by
  rcases h with ⟨hkind, -⟩ | ⟨hkind, -⟩ | hkind <;> simp [hkind]

theorem PortOf.isBelow {port : UInt16} {value : Value} (h : PortOf node port)
    (hvalue : node.property? "port" = some value) : IsBelow 65536 value := by
  rw [PortOf, hvalue, Option.getD_some] at h
  exact ⟨port.toNat, port.toNat_lt, h⟩

/-- The numbers of a node that is read are in range. -/
theorem ProbeReadAs.numbersInRange (h : ProbeReadAs node setting) : NumbersInRange node := by
  cases h with
  | action haction =>
    refine ⟨fun kind value hkind hexec hvalue => ?_, fun field hfield => ?_⟩
    · cases haction with
      | httpGet _ hport => exact hport.isBelow hvalue
      | tcpSocket _ hport => exact hport.isBelow hvalue
      | exec hkind' => exact absurd (Option.some.inj (hkind.symm.trans hkind')) hexec
    · exact absurd (ActionKind.ofName?_eq_none_of_count hfield) haction.kind_ne_none
  | @count field n hcount hvalue =>
    refine ⟨fun kind value hkind => ?_, fun _ _ => ⟨_, hvalue, n.toNat, n.toNat_lt, rfl⟩⟩
    rw [ActionKind.ofName?_eq_none_of_count hcount] at hkind
    cases hkind
  | unknown haction hcount =>
    refine ⟨fun kind value hkind => ?_, fun field hfield => ?_⟩
    · rw [haction] at hkind
      cases hkind
    · rw [hcount] at hfield
      cases hfield

/-- A node of a probe can be read exactly if its numbers are in range. -/
theorem exists_readProbeSetting_iff :
    (∃ setting, readProbeSetting kind node = .ok setting) ↔ NumbersInRange node := by
  refine ⟨fun ⟨_, h⟩ => (probeReadAs_of_readProbeSetting h).numbersInRange, fun h => ?_⟩
  rw [readProbeSetting, readProbeAction?_eq]
  cases haction : ActionKind.ofName? node.name with
  | some action =>
    cases action with
    | exec => exact ⟨_, rfl⟩
    | httpGet =>
      obtain ⟨port, hport⟩ := exists_readActionPort_iff.2 fun value => h.port _ value haction nofun
      exact ⟨_, map_eq_ok_iff.2 ⟨_, map_eq_ok_iff.2 ⟨port, hport, rfl⟩, rfl⟩⟩
    | tcpSocket =>
      obtain ⟨port, hport⟩ := exists_readActionPort_iff.2 fun value => h.port _ value haction nofun
      exact ⟨_, map_eq_ok_iff.2 ⟨_, map_eq_ok_iff.2 ⟨port, hport, rfl⟩, rfl⟩⟩
  | none =>
    cases hcount : ProbeCount.ofName? node.name with
    | none => exact ⟨_, rfl⟩
    | some field =>
      obtain ⟨value, hvalue, hbelow⟩ := h.count field hcount
      obtain ⟨n, hread⟩ := exists_readCount_eq_ok_iff.2 hbelow
      rw [hvalue]
      exact ⟨_, map_eq_ok_iff.2 ⟨n, hread, rfl⟩⟩

/-! ### Probes -/

/-- The nodes of a block that are actions. -/
def probeActionNodes (block : List Node) : List Node :=
  block.filter fun node => (ActionKind.ofName? node.name).isSome

/-- The nodes of a block that set one count. -/
def countNodes (field : ProbeCount) (block : List Node) : List Node :=
  block.filter fun node => ProbeCount.ofName? node.name = some field

/-- A block of a probe that can be read: there is an action in it, and all numbers of all of its
nodes are in range. -/
structure CompleteProbe (block : List Node) : Prop where
  action : probeActionNodes block ≠ []
  numbers : ∀ node ∈ block, NumbersInRange node

end Config

open Kdl (Node Value)
open Config

/-- A count of a probe. -/
def Probe.count (probe : Probe) : ProbeCount → Option UInt32
  | .initialDelay => probe.initialDelay
  | .period => probe.period
  | .timeout => probe.timeout
  | .successThreshold => probe.successThreshold
  | .failureThreshold => probe.failureThreshold

/-- The probe with an action and counts. -/
def Probe.ofCounts (action : ProbeAction) (count : ProbeCount → Option UInt32) : Probe :=
  ⟨action, count .initialDelay, count .period, count .timeout, count .successThreshold,
    count .failureThreshold⟩

@[simp] theorem Probe.count_ofCounts (action : ProbeAction) (count : ProbeCount → Option UInt32)
    (field : ProbeCount) : (ofCounts action count).count field = count field := by
  cases field <;> rfl

/-- The probe that a block describes: the last action, and of each count the last value, if any. -/
structure Probe.SetBy (block : List Node) (probe : Probe) : Prop where
  action : ∃ node, (probeActionNodes block).getLast? = some node ∧ ActionOf node probe.action
  counts : ∀ field, Option.Rel (fun node (n : UInt32) => node.argument? = some (.int n.toNat))
    (countNodes field block).getLast? (probe.count field)

namespace Config

variable {node : Node} {kind : String} {block : List Node} {probe : Probe}

/-- The action of a setting. -/
def ProbeSetting.action? : ProbeSetting → Option ProbeAction
  | .action a => some a
  | .count _ _ => none

/-- The value of a setting of a count. -/
def ProbeSetting.count? (field : ProbeCount) : ProbeSetting → Option UInt32
  | .action _ => none
  | .count field' value => if field' = field then some value else none

theorem lastAction_eq (settings : List ProbeSetting) :
    lastAction settings = (settings.filterMap ProbeSetting.action?).getLast? :=
  findSome?_reverse_eq_getLast?_filterMap _ settings

theorem lastCount_eq (field : ProbeCount) (settings : List ProbeSetting) :
    lastCount field settings = (settings.filterMap (ProbeSetting.count? field)).getLast? :=
  findSome?_reverse_eq_getLast?_filterMap _ settings

theorem action_of_readAs {setting : Option ProbeSetting} (h : ProbeReadAs node setting) :
    (setting.bind fun s => s.action?.map fun action => some (.ok action))
      = if (ActionKind.ofName? node.name).isSome then some (readProbeAction? node) else none := by
  cases h with
  | action haction =>
    rw [if_pos (Option.isSome_iff_ne_none.2 haction.kind_ne_none),
      readProbeAction?_eq_ok_iff.2 haction]
    rfl
  | count hcount => simp [ActionKind.ofName?_eq_none_of_count hcount, ProbeSetting.action?]
  | unknown haction => simp [haction]

theorem count_of_readAs {setting : Option ProbeSetting} (field : ProbeCount)
    (h : ProbeReadAs node setting) :
    (setting.bind fun s => (s.count? field).map fun n => some (Value.int n.toNat))
      = if ProbeCount.ofName? node.name = some field then some node.argument? else none := by
  cases h with
  | action haction =>
    have hcount : ProbeCount.ofName? node.name ≠ some field :=
      fun heq => haction.kind_ne_none (ActionKind.ofName?_eq_none_of_count heq)
    simp [hcount, ProbeSetting.count?]
  | @count field' n hcount hvalue =>
    by_cases heq : field' = field <;> simp [hcount, hvalue, ProbeSetting.count?, heq]
  | unknown _ hcount => simp [hcount]

section Settings

variable {settings : List (Option ProbeSetting)}

/-- The last action is what the last node that is one is read as. -/
theorem lastAction_of_mapM (h : block.mapM (readProbeSetting kind) = .ok settings) :
    (lastAction (settings.filterMap id)).map (fun action => some (.ok action))
      = (probeActionNodes block).getLast?.map readProbeAction? := by
  rw [lastAction_eq]
  exact getLast?_filterMap_of_mapM h fun node setting hread =>
    action_of_readAs (probeReadAs_of_readProbeSetting hread)

/-- The last value of a count is the argument of the last node that sets it. -/
theorem lastCount_of_mapM (field : ProbeCount)
    (h : block.mapM (readProbeSetting kind) = .ok settings) :
    (lastCount field (settings.filterMap id)).map (fun n => some (Value.int n.toNat))
      = (countNodes field block).getLast?.map Node.argument? := by
  rw [lastCount_eq]
  refine getLast?_filterMap_of_mapM h fun node setting hread => ?_
  simpa using count_of_readAs field (probeReadAs_of_readProbeSetting hread)

end Settings

/-- A probe is what the last of its settings say. -/
theorem readProbe_eq_ok_iff_last : readProbe kind block = .ok probe ↔ ∃ settings,
    block.mapM (readProbeSetting kind) = .ok settings ∧
      lastAction (settings.filterMap id) = some probe.action ∧
      ∀ field, lastCount field (settings.filterMap id) = probe.count field := by
  refine bind_eq_ok_iff.trans (exists_congr fun settings => and_congr_right fun _ => ?_)
  dsimp only
  cases haction : lastAction (settings.filterMap id) with
  | none => exact iff_of_false nofun nofun
  | some action =>
    constructor
    · intro h
      cases h
      exact ⟨rfl, fun field => by cases field <;> rfl⟩
    · rintro ⟨heq, hcount⟩
      cases heq
      simp only [hcount]
      rfl

/-- A probe that is read is the one that its block describes. -/
theorem setBy_of_readProbe (h : readProbe kind block = .ok probe) : probe.SetBy block := by
  obtain ⟨settings, hread, haction, hcount⟩ := readProbe_eq_ok_iff_last.1 h
  refine ⟨?_, fun field => ?_⟩
  · have hlast := lastAction_of_mapM hread
    rw [haction, Option.map_some, eq_comm, Option.map_eq_some_iff] at hlast
    obtain ⟨node, hnode, hlast⟩ := hlast
    exact ⟨node, hnode, readProbeAction?_eq_ok_iff.1 hlast⟩
  · have hlast := lastCount_of_mapM field hread
    rw [hcount] at hlast
    exact rel_of_map_eq hlast fun _ _ => Eq.symm

end Config

/-- A block describes one probe. -/
theorem Probe.SetBy.unique {block : List Node} {probe probe' : Probe} (h : probe.SetBy block)
    (h' : probe'.SetBy block) : probe = probe' := by
  have haction : probe.action = probe'.action := by
    obtain ⟨node, hnode, hread⟩ := h.action
    obtain ⟨node', hnode', hread'⟩ := h'.action
    obtain rfl : node = node' := Option.some.inj (hnode.symm.trans hnode')
    rw [← readProbeAction?_eq_ok_iff] at hread hread'
    exact Except.ok.inj (Option.some.inj (hread.symm.trans hread'))
  have hcount (field : ProbeCount) : probe.count field = probe'.count field := by
    refine rel_unique (fun node n n' hn hn' => ?_) (h.counts field) (h'.counts field)
    exact UInt32.toNat_inj.1 (Int.ofNat.inj (Value.int.inj (Option.some.inj (hn.symm.trans hn'))))
  cases probe
  cases probe'
  rw [Probe.mk.injEq]
  exact ⟨haction, hcount .initialDelay, hcount .period, hcount .timeout, hcount .successThreshold,
    hcount .failureThreshold⟩

namespace Config

variable {node : Node} {kind : String} {block : List Node} {probe : Probe}

/-- A probe can be read exactly if its block is complete. -/
theorem exists_readProbe_iff :
    (∃ probe, readProbe kind block = .ok probe) ↔ CompleteProbe block := by
  constructor
  · rintro ⟨probe, h⟩
    obtain ⟨settings, hread, -⟩ := readProbe_eq_ok_iff_last.1 h
    obtain ⟨node, hnode, -⟩ := (setBy_of_readProbe h).action
    exact ⟨List.ne_nil_of_mem (List.mem_of_getLast? hnode), fun node hnode =>
      exists_readProbeSetting_iff.1 (exists_mapM_eq_ok_iff.1 ⟨settings, hread⟩ node hnode)⟩
  · intro h
    obtain ⟨settings, hread⟩ : ∃ settings, block.mapM (readProbeSetting kind) = .ok settings :=
      exists_mapM_eq_ok_iff.2 fun node hnode => exists_readProbeSetting_iff.2 (h.numbers node hnode)
    obtain ⟨action, haction⟩ : ∃ action, lastAction (settings.filterMap id) = some action := by
      refine Option.ne_none_iff_exists'.1 fun hnone => h.action ?_
      have hlast := lastAction_of_mapM hread
      rwa [hnone, Option.map_none, eq_comm, Option.map_eq_none_iff, List.getLast?_eq_none_iff]
        at hlast
    exact ⟨.ofCounts action fun field => lastCount field (settings.filterMap id),
      readProbe_eq_ok_iff_last.2 ⟨settings, hread, haction, fun field => by simp⟩⟩

/-- What a probe is read as. -/
theorem readProbe_eq_ok_iff :
    readProbe kind block = .ok probe ↔ CompleteProbe block ∧ probe.SetBy block := by
  constructor
  · intro h
    exact ⟨exists_readProbe_iff.1 ⟨probe, h⟩, setBy_of_readProbe h⟩
  · rintro ⟨hcomplete, hprobe⟩
    obtain ⟨probe', h⟩ := exists_readProbe_iff.2 hcomplete
    rw [h, (setBy_of_readProbe h).unique hprobe]

/-! ### Healthchecks -/

/-- A section that can be read: each probe in it has a block, and the block is complete. -/
def CompleteHealthcheck (node : Node) : Prop :=
  ∀ child ∈ node.childNodes, child.name ∈ probeKinds →
    ∃ block, child.children = some block ∧ CompleteProbe block

end Config

/-- The kinds of probe. -/
inductive ProbeKind where
  | readiness
  | liveness
  | startup
deriving DecidableEq

/-- The name of a kind. -/
def ProbeKind.name : ProbeKind → String
  | readiness => "readiness"
  | liveness => "liveness"
  | startup => "startup"

/-- The probe of a kind. -/
def Probes.ofKind (probes : Probes) : ProbeKind → Option Probe
  | .readiness => probes.readiness
  | .liveness => probes.liveness
  | .startup => probes.startup

/-- The probes that a section describes: of each kind that of its last node. -/
def Probes.SetBy (node : Node) (probes : Probes) : Prop :=
  ∀ kind : ProbeKind,
    Option.Rel (fun child probe => ∃ block, child.children = some block ∧ probe.SetBy block)
      (node.childNodes.filter (·.name = kind.name)).getLast? (probes.ofKind kind)

namespace Config

variable {node : Node} {probes : Probes}

theorem readNamedProbe_eq_ok_iff {named : String × Probe} : readNamedProbe node = .ok named ↔
    named.1 = node.name ∧ ∃ block, node.children = some block ∧ CompleteProbe block ∧
      named.2.SetBy block := by
  obtain ⟨name, probe⟩ := named
  rw [readNamedProbe]
  cases node.children with
  | none => simp
  | some block =>
    have hread (p : Probe) : readProbe node.name block = .ok p ↔
        CompleteProbe block ∧ p.SetBy block := readProbe_eq_ok_iff
    simp only [map_eq_ok_iff, hread, Prod.mk.injEq, Option.some.injEq, exists_eq_left']
    constructor
    · rintro ⟨_, hprobe, rfl, rfl⟩
      exact ⟨rfl, hprobe⟩
    · rintro ⟨rfl, hprobe⟩
      exact ⟨probe, hprobe, rfl, rfl⟩

theorem exists_readNamedProbe_iff : (∃ named, readNamedProbe node = .ok named) ↔
    ∃ block, node.children = some block ∧ CompleteProbe block := by
  rw [readNamedProbe]
  cases node.children with
  | none => simp
  | some block =>
    have hread : (∃ probe, readProbe node.name block = .ok probe) ↔ CompleteProbe block :=
      exists_readProbe_iff
    simp [map_eq_ok_iff, ← hread]

/-- The nodes of a section that are probes. -/
def probeNodes (node : Node) : List Node := node.childNodes.filter (probeKinds.contains ·.name)

/-- A probe is that of the last node of its kind. -/
theorem readProbes_eq_ok_iff_last : readProbes node = .ok probes ↔ ∃ named,
    (probeNodes node).mapM readNamedProbe = .ok named ∧
      ∀ kind : ProbeKind, (named.findRev? (·.1 = kind.name)).map (·.2) = probes.ofKind kind := by
  refine bind_eq_ok_iff.trans (exists_congr fun named => and_congr_right fun _ => ?_)
  constructor
  · intro h kind
    cases h
    cases kind <;> rfl
  · intro h
    obtain ⟨readiness, liveness, startup⟩ := probes
    exact congrArg Except.ok ((Probes.mk.injEq ..).mpr ⟨h .readiness, h .liveness, h .startup⟩)

theorem name_mem_probeKinds (kind : ProbeKind) : kind.name ∈ probeKinds := by
  cases kind <;> decide

/-- The probes that are read are those that the section describes. -/
theorem setBy_of_readProbes (h : readProbes node = .ok probes) : probes.SetBy node := by
  obtain ⟨named, hread, hlast⟩ := readProbes_eq_ok_iff_last.1 h
  intro kind
  have hnodes : (probeNodes node).filter (·.name = kind.name)
      = node.childNodes.filter (·.name = kind.name) := by
    rw [probeNodes, List.filter_filter]
    refine List.filter_congr fun child _ => ?_
    by_cases hname : child.name = kind.name <;> simp [hname, name_mem_probeKinds]
  have hnamed : (node.childNodes.filter (·.name = kind.name)).mapM readNamedProbe
      = .ok (named.filter (·.1 = kind.name)) := by
    rw [← hnodes]
    refine mapM_filter_of_mapM hread fun child named hchild => ?_
    rw [(readNamedProbe_eq_ok_iff.1 hchild).1]
  have hmap := map_eq_of_mapM hnamed fun _ _ => Eq.symm
  have hread' : Option.Rel (fun child named => readNamedProbe child = .ok named)
      (node.childNodes.filter (·.name = kind.name)).getLast?
      (named.filter (·.1 = kind.name)).getLast? := by
    refine rel_of_map_eq ?_ fun _ _ => Eq.symm
    rw [← List.getLast?_map, ← List.getLast?_map, hmap]
  rw [← hlast, findRev?_eq_getLast?_filter]
  refine rel_map_right hread' fun child named hchild => ?_
  obtain ⟨-, block, hbody, -, hprobe⟩ := readNamedProbe_eq_ok_iff.1 hchild
  exact ⟨block, hbody, hprobe⟩

/-- A healthcheck can be read exactly if each of its probes has a complete block. -/
theorem exists_readProbes_iff :
    (∃ probes, readProbes node = .ok probes) ↔ CompleteHealthcheck node := by
  have hnodes : (∃ named, (probeNodes node).mapM readNamedProbe = .ok named) ↔
      CompleteHealthcheck node := by
    simp only [exists_mapM_eq_ok_iff, exists_readNamedProbe_iff, probeNodes, List.mem_filter,
      List.contains_iff_mem, and_imp]
    rfl
  rw [← hnodes]
  constructor
  · rintro ⟨probes, h⟩
    obtain ⟨named, hread, -⟩ := readProbes_eq_ok_iff_last.1 h
    exact ⟨named, hread⟩
  · rintro ⟨named, hread⟩
    exact ⟨_, bind_eq_ok_iff.2 ⟨named, hread, rfl⟩⟩

end Config

/-- A section describes one set of probes. -/
theorem Probes.SetBy.unique {node : Node} {probes probes' : Probes} (h : probes.SetBy node)
    (h' : probes'.SetBy node) : probes = probes' := by
  have hkind (kind : ProbeKind) : probes.ofKind kind = probes'.ofKind kind := by
    refine rel_unique ?_ (h kind) (h' kind)
    rintro child probe probe' ⟨block, hbody, hprobe⟩ ⟨block', hbody', hprobe'⟩
    obtain rfl : block = block' := Option.some.inj (hbody.symm.trans hbody')
    exact hprobe.unique hprobe'
  cases probes
  cases probes'
  exact (Probes.mk.injEq ..).mpr ⟨hkind .readiness, hkind .liveness, hkind .startup⟩

/-! ### Port zero -/

/-- The port of an action, if it goes to one. -/
def ProbeAction.port? : ProbeAction → Option UInt16
  | .httpGet _ port _ => some port
  | .tcpSocket port => some port
  | .exec _ => none

theorem ProbeAction.WellFormed.port?_ne {action : ProbeAction} (h : action.WellFormed) :
    action.port? ≠ some 0 := by
  cases action with
  | httpGet path port scheme => simpa [port?] using h.1
  | tcpSocket port => simpa [port?, WellFormed] using h
  | exec command => simp [port?]

theorem Probes.wellFormed_iff {probes : Probes} :
    probes.WellFormed ↔ ∀ kind, ∀ probe ∈ probes.ofKind kind, probe.WellFormed := by
  constructor
  · rintro ⟨hreadiness, hliveness, hstartup⟩ (_ | _ | _)
    exacts [hreadiness, hliveness, hstartup]
  · intro h
    exact ⟨h .readiness, h .liveness, h .startup⟩

/-- Where a probe goes to port zero, the probes are not handed out. -/
theorem DeclaredPorts.probes_of_portZero {ports : DeclaredPorts} {kind : ProbeKind} {probe : Probe}
    (h : ports.healthcheck.ofKind kind = some probe) (hport : probe.action.port? = some 0) :
    ∃ kind fault, ports.probes = .error (.badProbe kind fault) := by
  have hfault : ports.healthcheck.fault? ≠ none := by
    rw [Ne, Probes.fault?_eq_none_iff, Probes.wellFormed_iff]
    exact fun hall => (hall kind probe h).action.port?_ne hport
  obtain ⟨⟨kind, fault⟩, hfault⟩ := Option.ne_none_iff_exists'.1 hfault
  exact ⟨kind, fault, by rw [probes, hfault]⟩

/-- The probes of a descriptor. -/
def Descriptor.probes (d : Descriptor) : Probes :=
  ⟨d.readinessProbe, d.livenessProbe, d.startupProbe⟩

namespace App

variable {app : App} {name : String} {version : Option Version} {d s : Descriptor}

/-- The overlays of a process lead to ports only if the probes are well formed. -/
theorem wellFormed_of_runs {spec : ProcessSpec} {version : Version}
    (h : Overlay.Runs (app.overlays spec version) (.blank spec.name spec.routable) s)
    (hports : s.containerPorts ≠ []) : app.ports.healthcheck.WellFormed := by
  have hopens : app.ports.source.Opens (Descriptor.blank spec.name spec.routable).name :=
    DeclaredPorts.opens_source_iff.2 (mt (containerPorts_eq_nil_iff_of_runs h).2 hports)
  have hfault := congrArg Applied.fault
    (apply_overlay_of_runs h (.portsAndProbes app.ports.source) (by simp [overlays]))
  rw [Overlay.fault_apply, Overlay.faultFor?, if_pos hopens, DeclaredPorts.fault?_source,
    Option.map_eq_none_iff] at hfault
  exact Probes.fault?_eq_none_iff.1 hfault

/-- The probes of a built descriptor are those of the healthcheck, all well formed, or none. -/
theorem probes_of_buildProcess (h : app.buildProcess name version = .ok d) :
    d.probes = .none ∨ d.probes = app.ports.healthcheck ∧ app.ports.healthcheck.WellFormed := by
  cases hspec : app.process? name with
  | none =>
    rw [buildProcess_of_none hspec] at h
    cases h
  | some spec =>
    rw [buildProcess_of_some hspec, ← name_of_process? hspec] at h
    obtain ⟨s, hrun, -, rfl⟩ := build_eq_ok_iff.1 h
    by_cases hports : s.containerPorts = []
    · obtain ⟨-, -, hprobes⟩ := unwired_of_runs hrun hports
      exact .inl ((Probes.mk.injEq ..).mpr hprobes)
    · obtain ⟨-, hprobes⟩ := wired_of_runs hrun hports
      exact .inr ⟨(Probes.mk.injEq ..).mpr hprobes, wellFormed_of_runs hrun hports⟩

/-- No probe of a built descriptor goes to port zero. -/
theorem port_ne_zero_of_buildProcess (h : app.buildProcess name version = .ok d) {kind : ProbeKind}
    {probe : Probe} (hprobe : d.probes.ofKind kind = some probe) :
    probe.action.port? ≠ some 0 := by
  rcases probes_of_buildProcess h with hnone | ⟨heq, hsound⟩
  · rw [hnone] at hprobe
    cases kind <;> cases hprobe
  · rw [heq] at hprobe
    exact (Probes.wellFormed_iff.1 hsound kind probe hprobe).action.port?_ne

end App

namespace Config

/-- **What a healthcheck is read as.** A healthcheck can be read exactly if each probe in it has a
block with an action whose nodes all give numbers in range, and then it is read as the probes that
it describes, and no others. Where one of these goes to port zero, they are not handed out, so
whatever is built for an application with them has no probe that does. -/
theorem readProbes_setBy (node : Node) :
    ((∃ probes, readProbes node = .ok probes) ↔ CompleteHealthcheck node) ∧
    ∀ probes, readProbes node = .ok probes →
      probes.SetBy node ∧ (∀ other : Probes, other.SetBy node → other = probes) ∧
      ∀ app : App, app.ports.healthcheck = probes →
        (∀ kind probe, probes.ofKind kind = some probe → probe.action.port? = some 0 →
          ∃ name fault, app.ports.probes = .error (.badProbe name fault)) ∧
        ∀ name version d, app.buildProcess name version = .ok d →
          ∀ kind probe, d.probes.ofKind kind = some probe → probe.action.port? ≠ some 0 := by
  refine ⟨exists_readProbes_iff, fun probes h => ?_⟩
  have hprobes := setBy_of_readProbes h
  refine ⟨hprobes, fun other hother => hother.unique hprobes, fun app happ => ⟨?_, ?_⟩⟩
  · rintro kind probe hprobe hport
    exact DeclaredPorts.probes_of_portZero (happ ▸ hprobe) hport
  · intro name version d hbuild kind probe hprobe
    exact App.port_ne_zero_of_buildProcess hbuild hprobe

/-- A section with two probes of one kind, settings that later ones take the place of, and an action
without a port. -/
def insistent : Node where
  name := "healthcheck"
  entries := []
  children := some
    [⟨"readiness", [], some [⟨"exec", [⟨none, .text "true"⟩], none⟩]⟩,
      ⟨"liveness", [], some
        [⟨"period", [⟨none, .int 5⟩], none⟩, ⟨"tcp-socket", [⟨some "port", .int 8080⟩], none⟩,
          ⟨"http-get", [], none⟩, ⟨"period", [⟨none, .int 9⟩], none⟩]⟩,
      ⟨"note", [], none⟩,
      ⟨"readiness", [], some
        [⟨"initial_delay", [⟨none, .int 3⟩], none⟩,
          ⟨"tcp_socket", [⟨some "port", .int 80⟩], none⟩]⟩]

/-- The probes of that section. -/
def insistentProbes : Probes where
  readiness := some ⟨.tcpSocket 80, some 3, none, none, none, none⟩
  liveness := some ⟨.httpGet "/" 0 none, none, some 9, none, none, none⟩
  startup := none

/-- It is read as the last settings of the last probes, and port zero is refused where the probes
are asked for. -/
theorem readProbes_insistent : readProbes insistent = .ok insistentProbes ∧
    CompleteHealthcheck insistent ∧ insistentProbes.SetBy insistent ∧
    ∃ name fault, (DeclaredPorts.mk ∅ [80] insistentProbes).probes
      = .error (.badProbe name fault) := by
  have hread : readProbes insistent = .ok insistentProbes := by decide +kernel
  obtain ⟨hcomplete, hprobes⟩ := readProbes_setBy insistent
  obtain ⟨hset, -, happ⟩ := hprobes insistentProbes hread
  obtain ⟨hrefused, -⟩ := happ { App.blank "shop" with ports := ⟨∅, [80], insistentProbes⟩ } rfl
  exact ⟨hread, hcomplete.1 ⟨_, hread⟩, hset, hrefused .liveness _ rfl rfl⟩

end Config

end ProcessPlan
