import ProcessPlan.Proofs.Config.Healthcheck
import ProcessPlan.Proofs.Config.Items
import ProcessPlan.Proofs.Config.Settings

/-!
# Where numbers stand

A number can stand in a document in some fifteen places, each with a range of its own. Every one of
them is looked at when its section is read, also where a later node takes its place, and a section
with a number out of range cannot be read. So in a document that declares an application each number
is an integer in the range of its place.

## Main definitions

* `NumberRange.Contains`, `NumberRange.Admits`: the integers of a range, and the values that are
  among them
* `Config.SettingReads`, `Config.SectionReads`: the places of numbers in the block of a process and
  in a section

## Main results

* `Config.admits_of_readSection`: the numbers of a section that can be read are in range
* `App.exists_error_of_not_admits`: a number out of range leaves no application
-/

namespace ProcessPlan

open Kdl (Node Value Document)

/-! ### Ranges -/

/-- The integers of a range: those of 16 bits, of 32 bits, and of 64 bits with a sign. -/
def NumberRange.Contains : NumberRange → Int → Prop
  | port, n => 0 ≤ n ∧ n < 65536
  | count, n => 0 ≤ n ∧ n < 4294967296
  | signed, n => -9223372036854775808 ≤ n ∧ n < 9223372036854775808

/-- A value that is an integer of a range. -/
def NumberRange.Admits (range : NumberRange) (value : Value) : Prop :=
  ∃ n, value = .int n ∧ range.Contains n

namespace Config

variable {value : Value} {node : Node} {range : NumberRange}

theorem admits_of_isBelow_port (h : IsBelow 65536 value) : NumberRange.port.Admits value := by
  obtain ⟨n, hn, rfl⟩ := h
  exact ⟨n, rfl, Int.natCast_nonneg n, by omega⟩

theorem admits_of_isBelow_count (h : IsBelow 4294967296 value) :
    NumberRange.count.Admits value := by
  obtain ⟨n, hn, rfl⟩ := h
  exact ⟨n, rfl, Int.natCast_nonneg n, by omega⟩

theorem admits_port (port : UInt16) : NumberRange.port.Admits (.int port.toNat) :=
  admits_of_isBelow_port ⟨port.toNat, port.toNat_lt, rfl⟩

theorem admits_count (count : UInt32) : NumberRange.count.Admits (.int count.toNat) :=
  admits_of_isBelow_count ⟨count.toNat, count.toNat_lt, rfl⟩

theorem admits_signed (n : Int64) : NumberRange.signed.Admits (.int n.toInt) :=
  ⟨n.toInt, rfl, n.le_toInt, n.toInt_lt⟩

/-! ### In the block of a process -/

/-- A setting of a process has a number of a range: the instances that it wants, the user and the
group that it runs as, or the port of one of its hooks. -/
inductive SettingReads (node : Node) : NumberRange → Value → Prop where
  | units {value : Value} (kind : SettingKind.ofName? node.name = some .units)
      (number : node.argument? = some value) : SettingReads node .count value
  | runAsUser {value : Value} (kind : SettingKind.ofName? node.name = some .securityContext)
      (number : node.property? "run-as-user" = some value) : SettingReads node .signed value
  | runAsGroup {value : Value} (kind : SettingKind.ofName? node.name = some .securityContext)
      (number : node.property? "run-as-group" = some value) : SettingReads node .signed value
  | hookPort {moment action : Node} {value : Value}
      (kind : SettingKind.ofName? node.name = some .lifecycle)
      (inBlock : moment ∈ node.childNodes) (isMoment : (HookMoment.ofName? moment.name).isSome)
      (inMoment : action ∈ moment.childNodes) (isGet : action.name ∈ ["http-get", "http_get"])
      (number : action.property? "port" = some value) : SettingReads node .port value

/-- The numbers of a security context are the integers that stand there. -/
theorem numbers_of_readSecurityContext {context : SecurityContext}
    (h : readSecurityContext node = .ok context) :
    (context.runAsUser.map fun n => Value.int n.toInt) = node.property? "run-as-user" ∧
      (context.runAsGroup.map fun n => Value.int n.toInt) = node.property? "run-as-group" := by
  obtain ⟨user, huser, h⟩ := bind_eq_ok_iff.1 h
  obtain ⟨group, hgroup, h⟩ := bind_eq_ok_iff.1 h
  cases h
  exact ⟨(optional_eq_ok_iff fun _ _ => readSigned_eq_ok_iff).1 huser,
    (optional_eq_ok_iff fun _ _ => readSigned_eq_ok_iff).1 hgroup⟩

/-- A hook that gets something has a port. -/
theorem exists_port_of_readHookAction {action : Option HookAction}
    (h : readHookAction node = .ok action) (hget : node.name ∈ ["http-get", "http_get"]) :
    ∃ path port, node.property? "port" = some (.int port.toNat) ∧
      action = some (.httpGet path port) := by
  have hread : node.property? "port" ≠ none ∧ ∀ value, node.property? "port" = some value →
      ∃ port, readPort "http-get port" value = .ok port ∧
        action = some (.httpGet ((node.propertyText? "path").getD "/") port) := by
    unfold readHookAction at h
    rcases List.mem_pair.1 hget with hname | hname
    all_goals
      rw [hname] at h
      cases hvalue : node.property? "port" with
      | none =>
        rw [hvalue] at h
        cases h
      | some value =>
        rw [hvalue] at h
        obtain ⟨port, hport, h⟩ := bind_eq_ok_iff.1 h
        cases h
        refine ⟨nofun, fun _ heq => ?_⟩
        cases heq
        exact ⟨port, hport, rfl⟩
  obtain ⟨value, hvalue⟩ := Option.ne_none_iff_exists'.1 hread.1
  obtain ⟨port, hport, haction⟩ := hread.2 value hvalue
  exact ⟨_, port, hvalue.trans (congrArg some (readPort_eq_ok_iff.1 hport)), haction⟩

theorem admits_of_readLifecycle {block : List Node} {hooks : Lifecycle} {moment action : Node}
    (h : readLifecycle block = .ok hooks) (inBlock : moment ∈ block)
    (isMoment : (HookMoment.ofName? moment.name).isSome) (inMoment : action ∈ moment.childNodes)
    (isGet : action.name ∈ ["http-get", "http_get"])
    (hvalue : action.property? "port" = some value) : NumberRange.port.Admits value := by
  obtain ⟨listed, hlisted, -⟩ := bind_eq_ok_iff.1 h
  obtain ⟨_, -, hmoment⟩ := exists_mem_of_mapM hlisted inBlock
  obtain ⟨named, hnamed⟩ := Option.isSome_iff_exists.1 isMoment
  rw [readHooks, hnamed] at hmoment
  obtain ⟨actions, hactions, -⟩ := map_eq_ok_iff.1 hmoment
  obtain ⟨_, -, haction⟩ := exists_mem_of_mapM hactions inMoment
  obtain ⟨path, port, hport, -⟩ := exists_port_of_readHookAction haction isGet
  cases hport.symm.trans hvalue
  exact admits_port port

/-- The number of a setting that can be read is in range. -/
theorem admits_of_readProcessSetting {process : String} {setting : Option ProcessSetting}
    (h : readProcessSetting process node = .ok setting) (hreads : SettingReads node range value) :
    range.Admits value := by
  rw [readProcessSetting_eq] at h
  cases hreads with
  | units kind number =>
    rw [kind, number] at h
    obtain ⟨_, hmake, -⟩ := map_eq_ok_iff.1 h
    obtain ⟨count, hcount, -⟩ := map_eq_ok_iff.1 hmake
    obtain ⟨rfl, -⟩ := readUnits_eq_ok_iff.1 hcount
    exact admits_count count
  | runAsUser kind number =>
    rw [kind] at h
    obtain ⟨context, hcontext, -⟩ := map_eq_ok_iff.1 h
    obtain ⟨huser, -⟩ := numbers_of_readSecurityContext hcontext
    obtain ⟨n, -, rfl⟩ := Option.map_eq_some_iff.1 (huser.trans number)
    exact admits_signed n
  | runAsGroup kind number =>
    rw [kind] at h
    obtain ⟨context, hcontext, -⟩ := map_eq_ok_iff.1 h
    obtain ⟨-, hgroup⟩ := numbers_of_readSecurityContext hcontext
    obtain ⟨n, -, rfl⟩ := Option.map_eq_some_iff.1 (hgroup.trans number)
    exact admits_signed n
  | hookPort kind inBlock isMoment inMoment isGet number =>
    rw [kind] at h
    rcases readBlock_cases h with ⟨hbody, -⟩ | ⟨block, hooks, hbody, hhooks, -⟩
    all_goals rw [Node.childNodes, hbody] at inBlock
    · cases inBlock
    · exact admits_of_readLifecycle hhooks inBlock isMoment inMoment isGet number

/-! ### In a section -/

/-- A section has a number of a range. -/
inductive SectionReads (node : Node) : NumberRange → Value → Prop where
  | appVersion {value : Value} (kind : SectionKind.ofName? node.name = some .app)
      (number : node.property? "version" = some value) : SectionReads node .count value
  | setting {child : Node} {range : NumberRange} {value : Value}
      (kind : SectionKind.ofName? node.name = some .process) (inBlock : child ∈ node.childNodes)
      (number : SettingReads child range value) : SectionReads node range value
  | servicePort {process port : Node} {value : Value}
      (kind : SectionKind.ofName? node.name = some .ports) (inBlock : process ∈ node.childNodes)
      (isProcess : process.name = "process") (inProcess : port ∈ process.childNodes)
      (isPort : port.name = "port")
      (number : (port.property? "port").or port.argument? = some value) :
    SectionReads node .port value
  | targetPort {process port : Node} {value : Value}
      (kind : SectionKind.ofName? node.name = some .ports) (inBlock : process ∈ node.childNodes)
      (isProcess : process.name = "process") (inProcess : port ∈ process.childNodes)
      (isPort : port.name = "port")
      (number : (port.property? "target").or (port.property? "target_port") = some value) :
    SectionReads node .port value
  | exposedPort {value : Value} (kind : SectionKind.ofName? node.name = some .exposedPorts)
      (number : value ∈ node.arguments) : SectionReads node .port value
  | probePort {check action : Node} {value : Value}
      (kind : SectionKind.ofName? node.name = some .healthcheck) (inBlock : check ∈ node.childNodes)
      (isCheck : check.name ∈ probeKinds) (inCheck : action ∈ check.childNodes)
      (hasPort : action.name ∈ ["http-get", "http_get", "tcp-socket", "tcp_socket"])
      (number : action.property? "port" = some value) : SectionReads node .port value
  | probeCount {check setting : Node} {value : Value}
      (kind : SectionKind.ofName? node.name = some .healthcheck) (inBlock : check ∈ node.childNodes)
      (isCheck : check.name ∈ probeKinds) (inCheck : setting ∈ check.childNodes)
      (isCount : setting.name ∈ ["initial-delay", "initial_delay", "period", "timeout",
        "success-threshold", "success_threshold", "failure-threshold", "failure_threshold"])
      (number : setting.argument? = some value) : SectionReads node .count value
  | itemVersion {item : Node} {itemKind : MetadataKind} {value : Value}
      (kind : SectionKind.ofName? node.name = some (.ofItems itemKind))
      (inBlock : item ∈ node.childNodes) (isItem : item.name = "item")
      (number : item.property? "version" = some value) : SectionReads node .count value

/-- The numbers of a port are the integers that stand there. -/
theorem numbers_of_readPortDeclaration {d : PortDeclaration}
    (h : readPortDeclaration node = .ok d) :
    (node.property? "port").or node.argument? = some (.int d.number.toNat) ∧
      (d.target.map fun port => Value.int port.toNat)
        = (node.property? "target").or (node.property? "target_port") := by
  unfold readPortDeclaration at h
  dsimp only at h
  split at h
  · next value hvalue =>
    obtain ⟨number, hnumber, h⟩ := bind_eq_ok_iff.1 h
    obtain ⟨target, htarget, h⟩ := bind_eq_ok_iff.1 h
    obtain ⟨protocol, -, h⟩ := bind_eq_ok_iff.1 h
    cases h
    exact ⟨hvalue.trans (congrArg some (readPort_eq_ok_iff.1 hnumber)),
      (optional_eq_ok_iff fun _ _ => readPort_eq_ok_iff).1 htarget⟩
  · obtain ⟨_, hfault, -⟩ := bind_eq_ok_iff.1 h
    cases hfault

/-- The ports of a section that can be read can all be read. -/
theorem exists_readPortDeclaration {process port : Node}
    {listings : List (String × List PortDeclaration)} (h : readProcessPorts node = .ok listings)
    (inBlock : process ∈ node.childNodes) (isProcess : process.name = "process")
    (inProcess : port ∈ process.childNodes) (isPort : port.name = "port") :
    ∃ d, readPortDeclaration port = .ok d := by
  obtain ⟨_, -, hprocess⟩ := exists_mem_of_mapM h
    (List.mem_filter.2 ⟨inBlock, decide_eq_true isProcess⟩)
  obtain ⟨name, -, hprocess⟩ := bind_eq_ok_iff.1 hprocess
  obtain ⟨ds, hds, -⟩ := bind_eq_ok_iff.1 hprocess
  obtain ⟨d, -, hd⟩ := exists_mem_of_mapM hds
    (List.mem_filter.2 ⟨inProcess, decide_eq_true isPort⟩)
  exact ⟨d, hd⟩

/-- The numbers of the probes of a section that can be read are in range. -/
theorem numbersInRange_of_readProbes {probes : Probes} {check child : Node}
    (h : readProbes node = .ok probes) (inBlock : check ∈ node.childNodes)
    (isCheck : check.name ∈ probeKinds) (inCheck : child ∈ check.childNodes) :
    NumbersInRange child := by
  obtain ⟨block, hbody, hcomplete⟩ := exists_readProbes_iff.1 ⟨probes, h⟩ check inBlock isCheck
  rw [Node.childNodes, hbody] at inCheck
  exact hcomplete.numbers child inCheck

/-- The version of an item is the integer that stands there. -/
theorem version_of_readItem {item : MetadataItem} (h : readItem node = .ok item) :
    (item.version.map fun version => Value.int version.toNat) = node.property? "version" := by
  obtain ⟨target, -, h⟩ := bind_eq_ok_iff.1 h
  obtain ⟨version, hversion, h⟩ := bind_eq_ok_iff.1 h
  cases h
  exact (optional_eq_ok_iff fun _ _ => readCount_eq_ok_iff).1 hversion

/-- The version of an application is the integer that stands there. -/
theorem version_of_readApp {part : Section} (h : readApp node = .ok part) :
    ∃ name version, part = .app name version ∧
      (version.map fun version => Value.int version.toNat) = node.property? "version" := by
  obtain ⟨name, -, h⟩ := bind_eq_ok_iff.1 h
  obtain ⟨version, hversion, h⟩ := bind_eq_ok_iff.1 h
  cases h
  exact ⟨name, version, rfl, (optional_eq_ok_iff fun _ _ => readCount_eq_ok_iff).1 hversion⟩

/-- The numbers of a section that can be read are in range. -/
theorem admits_of_readSection {part : Section} (h : readSection node = .ok part)
    (hreads : SectionReads node range value) : range.Admits value := by
  rw [readSection_eq] at h
  cases hreads with
  | appVersion kind number =>
    rw [kind] at h
    obtain ⟨name, version, -, hversion⟩ := version_of_readApp h
    obtain ⟨count, -, rfl⟩ := Option.map_eq_some_iff.1 (hversion.trans number)
    exact admits_count count
  | setting kind inBlock number =>
    rw [kind] at h
    obtain ⟨spec, hspec, -⟩ := map_eq_ok_iff.1 h
    obtain ⟨settings, -, hsettings, -⟩ := exists_settings hspec
    obtain ⟨setting, -, hsetting⟩ := exists_mem_of_mapM hsettings inBlock
    exact admits_of_readProcessSetting hsetting number
  | servicePort kind inBlock isProcess inProcess isPort number =>
    rw [kind] at h
    obtain ⟨listings, hlistings, -⟩ := map_eq_ok_iff.1 h
    obtain ⟨d, hd⟩ := exists_readPortDeclaration hlistings inBlock isProcess inProcess isPort
    obtain ⟨hnumber, -⟩ := numbers_of_readPortDeclaration hd
    cases hnumber.symm.trans number
    exact admits_port d.number
  | targetPort kind inBlock isProcess inProcess isPort number =>
    rw [kind] at h
    obtain ⟨listings, hlistings, -⟩ := map_eq_ok_iff.1 h
    obtain ⟨d, hd⟩ := exists_readPortDeclaration hlistings inBlock isProcess inProcess isPort
    obtain ⟨-, htarget⟩ := numbers_of_readPortDeclaration hd
    obtain ⟨port, -, rfl⟩ := Option.map_eq_some_iff.1 (htarget.trans number)
    exact admits_port port
  | exposedPort kind number =>
    rw [kind] at h
    obtain ⟨ports, hports, -⟩ := map_eq_ok_iff.1 h
    obtain ⟨port, -, hport⟩ := exists_mem_of_mapM hports number
    obtain rfl := readPort_eq_ok_iff.1 hport
    exact admits_port port
  | probePort kind inBlock isCheck inCheck hasPort number =>
    rw [kind] at h
    obtain ⟨probes, hprobes, -⟩ := map_eq_ok_iff.1 h
    have hrange := numbersInRange_of_readProbes hprobes inBlock isCheck inCheck
    obtain ⟨actionKind, haction, hexec⟩ := ActionKind.exists_ofName?_iff.2 hasPort
    exact admits_of_isBelow_port (hrange.port _ _ haction hexec number)
  | probeCount kind inBlock isCheck inCheck isCount number =>
    rw [kind] at h
    obtain ⟨probes, hprobes, -⟩ := map_eq_ok_iff.1 h
    have hrange := numbersInRange_of_readProbes hprobes inBlock isCheck inCheck
    obtain ⟨count, hcount⟩ := ProbeCount.exists_ofName?_iff.2 isCount
    obtain ⟨value', hvalue', hbelow⟩ := hrange.count _ hcount
    cases number.symm.trans hvalue'
    exact admits_of_isBelow_count hbelow
  | @itemVersion item itemKind _ kind inBlock isItem number =>
    rw [← readSection_eq, readSection_of_items kind] at h
    obtain ⟨items, hitems, -⟩ := map_eq_ok_iff.1 h
    obtain ⟨read, -, hread⟩ := exists_mem_of_mapM hitems
      (List.mem_filter.2 ⟨inBlock, decide_eq_true isItem⟩)
    obtain ⟨count, -, rfl⟩ := Option.map_eq_some_iff.1 ((version_of_readItem hread).trans number)
    exact admits_count count

/-- Numbers stand only in sections. -/
theorem SectionReads.isSome_ofName? (h : SectionReads node range value) :
    (SectionKind.ofName? node.name).isSome := by
  cases h <;> simp [*]

end Config

open Config

/-- With a number out of range, a document declares no application. -/
theorem App.exists_error_of_not_admits {document : Document} {node : Node} {range : NumberRange}
    {value : Value} (standIn : String) (hnode : node ∈ document)
    (hreads : SectionReads node range value) (hrange : ¬ range.Admits value) :
    ∃ fault, App.ofDocument standIn document = .error fault := by
  cases h : App.ofDocument standIn document with
  | error fault => exact ⟨fault, rfl⟩
  | ok app =>
    obtain ⟨hreadable, -⟩ := (App.exists_ofDocument_iff standIn).1 ⟨app, h⟩
    obtain ⟨part, hpart⟩ := hreadable node hnode hreads.isSome_ofName?
    exact absurd (admits_of_readSection hpart hreads) hrange

end ProcessPlan
