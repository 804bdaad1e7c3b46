import ProcessPlan.Data.Descriptor
import ProcessPlan.Proofs.Data.Untagged
import ProcessPlan.Proofs.Data.Value

/-!
# Reading back what was written

Every value of the model that is written as data is read back from the JSON value of that data. What
is left out of a record is what the reader puts in for a missing field: an unset option, an empty
list, an empty table, the standard protocol. A source of a volume or an action of a probe stands
among the other fields of its record under the name of its alternative, and none of those fields has
such a name, so it is found again.

## Main definitions

* `Data.HasKey`, `Data.DistinctFields`: the keys of the fields of a record
* `Data.RoundTrips`: all values of a type are read back from the JSON values of their data

## Main results

* `Descriptor.distinctKeys`, `Descriptor.reads`: descriptors have distinct keys and are read back,
  and likewise for every type that they are made of
* `Descriptor.model_roundTrips`: descriptors, metadata items, declarations of ports and groups of
  probes survive being written and read
-/

namespace ProcessPlan

namespace Data

variable {α : Type} {key : String} {fields more : List (String × Data)}

/-! ### The keys of records -/

/-- A record has a field with a key. -/
def HasKey (key : String) (fields : List (String × Data)) : Prop := key ∈ fields.map (·.1)

/-- Fields with distinct keys, and so in all that they hold. -/
def DistinctFields (fields : List (String × Data)) : Prop :=
  (fields.map (·.1)).Nodup ∧ ∀ field ∈ fields, field.2.DistinctKeys

@[simp] theorem hasKey_nil : ¬ HasKey key [] := by simp [HasKey]

@[simp] theorem hasKey_cons {field : String × Data} :
    HasKey key (field :: fields) ↔ key = field.1 ∨ HasKey key fields := by
  simp [HasKey]

@[simp] theorem hasKey_append :
    HasKey key (fields ++ more) ↔ HasKey key fields ∨ HasKey key more := by
  rw [HasKey, List.map_append, List.mem_append]
  rfl

@[simp] theorem hasKey_optional {key' : String} {write : α → Data} {value : Option α} :
    HasKey key (optional key' write value) ↔ key = key' ∧ value.isSome := by
  cases value <;> simp

@[simp] theorem hasKey_nonempty {key' : String} {write : α → Data} {values : List α} :
    HasKey key (nonempty key' write values) ↔ key = key' ∧ values ≠ [] := by
  cases values <;> simp [nonempty]

@[simp] theorem distinctKeys_record : (record fields).DistinctKeys ↔ DistinctFields fields :=
  ⟨fun h => by cases h; constructor <;> assumption, fun h => .record h.1 h.2⟩

@[simp] theorem distinctFields_nil : DistinctFields [] := by simp [DistinctFields]

@[simp] theorem distinctFields_cons {field : String × Data} :
    DistinctFields (field :: fields) ↔
      field.2.DistinctKeys ∧ ¬ HasKey field.1 fields ∧ DistinctFields fields := by
  simp only [DistinctFields, HasKey, List.map_cons, List.nodup_cons, List.forall_mem_cons]
  tauto

@[simp] theorem distinctFields_append : DistinctFields (fields ++ more) ↔
    DistinctFields fields ∧ DistinctFields more ∧ ∀ key, HasKey key fields → ¬ HasKey key more := by
  simp only [DistinctFields, HasKey, List.map_append, List.nodup_append, List.forall_mem_append]
  constructor
  · rintro ⟨⟨h, h', hne⟩, hall, hall'⟩
    exact ⟨⟨h, hall⟩, ⟨h', hall'⟩, fun key hmem hmem' => hne key hmem key hmem' rfl⟩
  · rintro ⟨⟨h, hall⟩, ⟨h', hall'⟩, hdisjoint⟩
    exact ⟨⟨h, h', fun key hmem key' hmem' heq => hdisjoint key hmem (heq ▸ hmem')⟩, hall, hall'⟩

@[simp] theorem distinctFields_optional {write : α → Data} (h : ∀ a, (write a).DistinctKeys)
    (key : String) (value : Option α) : DistinctFields (optional key write value) := by
  cases value <;> simp [h]

@[simp] theorem distinctKeys_list_map {write : α → Data} (h : ∀ a, (write a).DistinctKeys)
    (values : List α) : (list (values.map write)).DistinctKeys :=
  .list (by simp [h])

@[simp] theorem distinctFields_nonempty {write : α → Data} (h : ∀ a, (write a).DistinctKeys)
    (key : String) (values : List α) : DistinctFields (nonempty key write values) := by
  unfold nonempty
  split <;> simp [distinctKeys_list_map h]

attribute [simp] DistinctKeys.null DistinctKeys.bool DistinctKeys.text

@[simp] theorem distinctKeys_texts (values : List String) : (texts values).DistinctKeys :=
  distinctKeys_list_map .text values

@[simp] theorem distinctKeys_table (t : Table String) : (table t).DistinctKeys := by
  refine .record ?_ (List.forall_mem_map.2 fun _ _ => .text _)
  rw [List.map_map, List.Nodup, List.pairwise_map]
  refine t.sorted.imp fun {entry entry'} hlt heq => ?_
  have hkey : entry.1 = entry'.1 := heq
  exact String.lt_irrefl _ (hkey ▸ hlt)

@[simp] theorem distinctKeys_word16 (n : UInt16) : (word16 n).DistinctKeys := .int _

@[simp] theorem distinctKeys_word32 (n : UInt32) : (word32 n).DistinctKeys := .int _

@[simp] theorem distinctKeys_signed64 (n : Int64) : (signed64 n).DistinctKeys := .int _

/-! ### The fields of records -/

@[simp] theorem lookup_optional {write : α → Data} {value : Option α} (key key' : String) :
    (optional key' write value).lookup key = if key = key' then value.map write else none := by
  by_cases h : key = key' <;> cases value <;> simp [h, Table.lookup_cons_ite]

@[simp] theorem lookup_nonempty {write : α → Data} {values : List α} (key key' : String) :
    (nonempty key' write values).lookup key
      = if key = key' ∧ values ≠ [] then some (list (values.map write)) else none := by
  by_cases h : key = key' <;> cases values <;> simp [h, nonempty, Table.lookup_cons_ite]

/-! ### Writing and reading -/

/-- All values of a type are read back from the JSON values of their data, and no object of those
has two fields with one key. -/
structure RoundTrips (write : α → Data) (read : Data → Option α) : Prop where
  /-- No object that is written has two equal keys. -/
  distinctKeys : ∀ a, (write a).plain.DistinctKeys
  /-- The data of a value has a JSON value. -/
  isJsonOf_plain : ∀ a, (write a).plain.IsJsonOf (write a)
  /-- The value is read back from it. -/
  read_plain : ∀ a, read (write a).plain = some a
  /-- It is so in whatever order the objects keep their fields. -/
  reads : ∀ a, Reads read (write a) a

theorem RoundTrips.of_reads {write : α → Data} {read : Data → Option α}
    (hkeys : ∀ a, (write a).DistinctKeys) (hreads : ∀ a, Reads read (write a) a) :
    RoundTrips write read where
  distinctKeys a := (hkeys a).plain
  isJsonOf_plain a := (hkeys a).isJsonOf_plain
  read_plain a := hreads a _ (hkeys a).isJsonOf_plain
  reads := hreads

end Data

open Data

attribute [local simp] List.lookup_append Table.lookup_cons_ite

@[simp] theorem Protocol.distinctKeys (p : Protocol) : p.toData.DistinctKeys := .text _

@[simp] theorem ContainerPort.distinctKeys (p : ContainerPort) : p.toData.DistinctKeys := by
  simp [toData]

@[simp] theorem ServicePort.distinctKeys (p : ServicePort) : p.toData.DistinctKeys := by
  simp [toData]

@[simp] theorem PortDeclaration.distinctKeys (p : PortDeclaration) : p.toData.DistinctKeys := by
  simp [toData]

@[simp] theorem Probe.distinctKeys (p : Probe) : p.toData.DistinctKeys := by
  cases h : p.action <;> simp [toData, h, ProbeAction.toField]

@[simp] theorem Probes.distinctKeys (ps : Probes) : ps.toData.DistinctKeys := by
  have hprobe (p : Option Probe) : (Probe.optionToData p).DistinctKeys := by
    cases p <;> simp [Probe.optionToData]
  simp [toData, hprobe]

@[simp] theorem EnvVar.distinctKeys (v : EnvVar) : v.toData.DistinctKeys := by
  simp [toData]

@[simp] theorem SecurityContext.distinctKeys (c : SecurityContext) : c.toData.DistinctKeys := by
  simp [toData]

@[simp] theorem Resources.lookup_tableField (t : Table String) (key key' : String) :
    (tableField key' t).lookup key = if key = key' ∧ t ≠ ∅ then some (table t) else none := by
  by_cases h : key = key' <;> by_cases ht : t = ∅ <;>
    simp [h, ht, tableField, Table.isEmpty_iff, Table.lookup_cons_ite]

@[simp] theorem Resources.hasKey_tableField {t : Table String} {key key' : String} :
    HasKey key (tableField key' t) ↔ key = key' ∧ t ≠ ∅ := by
  by_cases ht : t = ∅ <;> simp [ht, tableField, Table.isEmpty_iff]

@[simp] theorem Resources.distinctFields_tableField (key : String) (t : Table String) :
    DistinctFields (tableField key t) := by
  by_cases ht : t = ∅ <;> simp [ht, tableField, Table.isEmpty_iff]

@[simp] theorem Resources.distinctKeys (r : Resources) : r.toData.DistinctKeys := by
  simp [toData]

@[simp] theorem HookAction.distinctKeys (a : HookAction) : a.toData.DistinctKeys := by
  cases a <;> exact .variant (by simp)

@[simp] theorem Lifecycle.distinctKeys (l : Lifecycle) : l.toData.DistinctKeys := by
  simp [toData]

@[simp] theorem SelectorExpression.distinctKeys (e : SelectorExpression) :
    e.toData.DistinctKeys := by
  simp [toData, SelectorOperator.toData]

@[simp] theorem SelectorTerm.distinctKeys (t : SelectorTerm) : t.toData.DistinctKeys := by
  simp [toData]

@[simp] theorem Volume.distinctKeys (v : Volume) : v.toData.DistinctKeys := by
  cases h : v.source <;> simp [toData, h, VolumeSource.toField]

@[simp] theorem VolumeMount.distinctKeys (m : VolumeMount) : m.toData.DistinctKeys := by
  simp [toData]

@[simp] theorem MetadataItem.distinctKeys (item : MetadataItem) : item.toData.DistinctKeys := by
  simp [toData, Target.toData]

@[simp] theorem MetadataMaps.distinctKeys (m : MetadataMaps) : m.toData.DistinctKeys := by
  simp [toData]

@[simp] theorem Descriptor.distinctKeys (d : Descriptor) : d.toData.DistinctKeys := by
  simp [toData]

/-! ### Reading records -/

theorem Protocol.reads (p : Protocol) : Reads Protocol.ofData? p.toData p := by
  rintro _ ⟨⟩
  cases p <;> decide

theorem ContainerPort.reads (p : ContainerPort) : Reads ContainerPort.ofData? p.toData p := by
  intro value h
  obtain ⟨fields, rfl, hfields⟩ := h.exists_fields
  have hname : settable fields "name" text? = some p.name :=
    hfields.settable (by simp) reads_text rfl
  have hnumber : required fields "containerPort" word16? = some p.number :=
    hfields.required (by simp) (reads_word16 p.number)
  have hprotocol : standard fields "protocol" Protocol.ofData? .standard = some p.protocol :=
    hfields.standard (by simp [p.protocol.reads]) (by simp)
  simp [ofData?, fields?, hname, hnumber, hprotocol]

theorem ServicePort.reads (p : ServicePort) : Reads ServicePort.ofData? p.toData p := by
  intro value h
  obtain ⟨fields, rfl, hfields⟩ := h.exists_fields
  have hname : settable fields "name" text? = some p.name :=
    hfields.settable (by simp) reads_text rfl
  have hnumber : required fields "port" word16? = some p.number :=
    hfields.required (by simp) (reads_word16 p.number)
  have htarget : settable fields "targetPort" word16? = some p.target :=
    hfields.settable (by simp) reads_word16 rfl
  have hprotocol : standard fields "protocol" Protocol.ofData? .standard = some p.protocol :=
    hfields.standard (by simp [p.protocol.reads]) (by simp)
  simp [ofData?, fields?, hname, hnumber, htarget, hprotocol]

theorem PortDeclaration.reads (p : PortDeclaration) :
    Reads PortDeclaration.ofData? p.toData p := by
  intro value h
  obtain ⟨fields, rfl, hfields⟩ := h.exists_fields
  have hname : settable fields "name" text? = some p.name :=
    hfields.settable (by simp) reads_text rfl
  have hprotocol : standard fields "protocol" Protocol.ofData? .standard = some p.protocol :=
    hfields.standard (by simp [p.protocol.reads]) (by simp)
  have hnumber : required fields "port" word16? = some p.number :=
    hfields.required (by simp) (reads_word16 p.number)
  have htarget : settable fields "targetPort" word16? = some p.target :=
    hfields.settable (by simp) reads_word16 rfl
  simp [ofData?, fields?, hname, hprotocol, hnumber, htarget]

/-! ### Reading probes -/

theorem reads_command (command : List String) :
    Reads commandOfData? (.record [("command", texts command)]) command := by
  intro value h
  obtain ⟨fields, rfl, hfields⟩ := h.exists_fields
  have hcommand : required fields "command" (list? text?) = some command :=
    hfields.required (by simp) (reads_texts command)
  simp [commandOfData?, fields?, hcommand]

theorem ProbeAction.reads_httpGet (path : String) (port : UInt16) (scheme : Option String) :
    Reads httpGetOfData? (httpGet path port scheme).toField.2 (httpGet path port scheme) := by
  intro value h
  obtain ⟨fields, rfl, hfields⟩ := h.exists_fields
  have hpath : required fields "path" text? = some path :=
    hfields.required (by simp) (reads_text path)
  have hport : required fields "port" word16? = some port :=
    hfields.required (by simp) (reads_word16 port)
  have hscheme : settable fields "scheme" text? = some scheme :=
    hfields.settable (by simp) reads_text rfl
  simp [httpGetOfData?, fields?, hpath, hport, hscheme]

theorem ProbeAction.reads_tcpSocket (port : UInt16) :
    Reads tcpSocketOfData? (tcpSocket port).toField.2 (tcpSocket port) := by
  intro value h
  obtain ⟨fields, rfl, hfields⟩ := h.exists_fields
  have hport : required fields "port" word16? = some port :=
    hfields.required (by simp) (reads_word16 port)
  simp [tcpSocketOfData?, fields?, hport]

theorem ProbeAction.reads_exec (command : List String) :
    Reads (fun d => (commandOfData? d).map exec) (exec command).toField.2 (exec command) := by
  intro value h
  show (commandOfData? value).map exec = some (exec command)
  rw [reads_command command value h, Option.map_some]

/-- A key that names no alternative is looked up behind the field of the action. -/
theorem ProbeAction.lookup_toField_cons (a : ProbeAction) {key : String}
    (h : key ∉ ["httpGet", "tcpSocket", "exec"]) (fields : List (String × Data)) :
    (a.toField :: fields).lookup key = fields.lookup key := by
  cases a <;> simp_all [toField]

theorem Probe.reads (p : Probe) : Reads Probe.ofData? p.toData p := by
  intro value h
  obtain ⟨fields, rfl, hfields⟩ := h.exists_fields
  have haction : alternative? fields ProbeAction.alternatives = some p.action := by
    cases hp : p.action with
    | httpGet path port scheme =>
      exact hfields.alternative "httpGet"
        (by simp [ProbeAction.alternatives, ProbeAction.toField, hp])
        (by simp [ProbeAction.toField, hp]) (ProbeAction.reads_httpGet path port scheme)
    | tcpSocket port =>
      exact hfields.alternative "tcpSocket"
        (by simp [ProbeAction.alternatives, ProbeAction.toField, hp])
        (by simp [ProbeAction.toField, hp]) (ProbeAction.reads_tcpSocket port)
    | exec command =>
      exact hfields.alternative "exec"
        (by simp [ProbeAction.alternatives, ProbeAction.toField, hp])
        (by simp [ProbeAction.toField, hp]) (ProbeAction.reads_exec command)
  have hinitialDelay : settable fields "initialDelaySeconds" word32? = some p.initialDelay :=
    hfields.settable (by simp [ProbeAction.lookup_toField_cons]) reads_word32 rfl
  have hperiod : settable fields "periodSeconds" word32? = some p.period :=
    hfields.settable (by simp [ProbeAction.lookup_toField_cons]) reads_word32 rfl
  have htimeout : settable fields "timeoutSeconds" word32? = some p.timeout :=
    hfields.settable (by simp [ProbeAction.lookup_toField_cons]) reads_word32 rfl
  have hsuccess : settable fields "successThreshold" word32? = some p.successThreshold :=
    hfields.settable (by simp [ProbeAction.lookup_toField_cons]) reads_word32 rfl
  have hfailure : settable fields "failureThreshold" word32? = some p.failureThreshold :=
    hfields.settable (by simp [ProbeAction.lookup_toField_cons]) reads_word32 rfl
  simp [ofData?, recordFields?, haction, hinitialDelay, hperiod, htimeout, hsuccess, hfailure]

theorem Probes.reads (ps : Probes) : Reads Probes.ofData? ps.toData ps := by
  intro value h
  obtain ⟨fields, rfl, hfields⟩ := h.exists_fields
  have hprobe {key : String} {probe : Option Probe}
      (hlookup : ([("readiness", Probe.optionToData ps.readiness),
        ("liveness", Probe.optionToData ps.liveness),
        ("startup", Probe.optionToData ps.startup)] : List (String × Data)).lookup key
          = some (Probe.optionToData probe)) :
      settable fields key Probe.ofData? = some probe := by
    cases probe with
    | none =>
      obtain ⟨value, hvalue, ⟨⟩⟩ := hfields.exists_lookup hlookup
      rw [settable, hvalue]
    | some p =>
      have hset : some (Probe.optionToData (some p)) = (some p).map Probe.toData := rfl
      exact hfields.settable (hlookup.trans hset) Probe.reads rfl
  have hreadiness : settable fields "readiness" Probe.ofData? = some ps.readiness :=
    hprobe (by simp)
  have hliveness : settable fields "liveness" Probe.ofData? = some ps.liveness :=
    hprobe (by simp)
  have hstartup : settable fields "startup" Probe.ofData? = some ps.startup :=
    hprobe (by simp)
  simp [ofData?, fields?, hreadiness, hliveness, hstartup]

/-! ### Reading containers -/

theorem EnvVar.reads (v : EnvVar) : Reads EnvVar.ofData? v.toData v := by
  intro value h
  obtain ⟨fields, rfl, hfields⟩ := h.exists_fields
  have hname : required fields "name" text? = some v.name :=
    hfields.required (by simp) (reads_text v.name)
  have hvalue : required fields "value" text? = some v.value :=
    hfields.required (by simp) (reads_text v.value)
  simp [ofData?, fields?, hname, hvalue]

theorem SecurityContext.reads (c : SecurityContext) :
    Reads SecurityContext.ofData? c.toData c := by
  intro value h
  obtain ⟨fields, rfl, hfields⟩ := h.exists_fields
  have huser : settable fields "runAsUser" signed64? = some c.runAsUser :=
    hfields.settable (by simp) reads_signed64 rfl
  have hgroup : settable fields "runAsGroup" signed64? = some c.runAsGroup :=
    hfields.settable (by simp) reads_signed64 rfl
  have hnonRoot : settable fields "runAsNonRoot" bool? = some c.runAsNonRoot :=
    hfields.settable (by simp) reads_bool rfl
  have hprivileged : settable fields "privileged" bool? = some c.privileged :=
    hfields.settable (by simp) reads_bool rfl
  have hreadOnly :
      settable fields "readOnlyRootFilesystem" bool? = some c.readOnlyRootFilesystem :=
    hfields.settable (by simp) reads_bool rfl
  have hescalation :
      settable fields "allowPrivilegeEscalation" bool? = some c.allowPrivilegeEscalation :=
    hfields.settable (by simp) reads_bool rfl
  simp [ofData?, fields?, huser, hgroup, hnonRoot, hprivileged, hreadOnly, hescalation]

theorem Resources.reads (r : Resources) : Reads Resources.ofData? r.toData r := by
  intro value h
  obtain ⟨fields, rfl, hfields⟩ := h.exists_fields
  have hlimits : standard fields "limits" table? ∅ = some r.limits :=
    hfields.standard (by simp [reads_table]) (by simp)
  have hrequests : standard fields "requests" table? ∅ = some r.requests :=
    hfields.standard (by simp [reads_table]) (by simp)
  simp [ofData?, fields?, hlimits, hrequests]

theorem HookAction.reads (a : HookAction) : Reads HookAction.ofData? a.toData a := by
  cases a with
  | exec command =>
    rintro _ (_ | _ | _ | _ | _ | _ | _ | @⟨_, payload, _, h⟩)
    obtain ⟨fields, rfl, hfields⟩ := h.exists_fields
    have hcommand : required fields "command" (list? text?) = some command :=
      hfields.required (by simp) (reads_texts command)
    simp [ofData?, variant?, execOfData?, recordFields?, hcommand]
  | httpGet path port =>
    rintro _ (_ | _ | _ | _ | _ | _ | _ | @⟨_, payload, _, h⟩)
    obtain ⟨fields, rfl, hfields⟩ := h.exists_fields
    have hpath : required fields "path" text? = some path :=
      hfields.required (by simp) (reads_text path)
    have hport : required fields "port" word16? = some port :=
      hfields.required (by simp) (reads_word16 port)
    simp [ofData?, variant?, httpGetOfData?, recordFields?, hpath, hport]

theorem Lifecycle.reads (l : Lifecycle) : Reads Lifecycle.ofData? l.toData l := by
  intro value h
  obtain ⟨fields, rfl, hfields⟩ := h.exists_fields
  have hpostStart : settable fields "postStart" HookAction.ofData? = some l.postStart :=
    hfields.settable (by simp) HookAction.reads rfl
  have hpreStop : settable fields "preStop" HookAction.ofData? = some l.preStop :=
    hfields.settable (by simp) HookAction.reads rfl
  simp [ofData?, fields?, hpostStart, hpreStop]

/-! ### Reading the place of a process -/

theorem SelectorOperator.reads (op : SelectorOperator) :
    Reads SelectorOperator.ofData? op.toData op := by
  rintro _ ⟨⟩
  simp [ofData?, unitName?]

theorem SelectorExpression.reads (e : SelectorExpression) :
    Reads SelectorExpression.ofData? e.toData e := by
  intro value h
  obtain ⟨fields, rfl, hfields⟩ := h.exists_fields
  have hkey : required fields "key" text? = some e.key :=
    hfields.required (by simp) (reads_text e.key)
  have hoperator : required fields "operator" SelectorOperator.ofData? = some e.operator :=
    hfields.required (by simp) e.operator.reads
  have hvalues : standard fields "values" (list? text?) [] = some e.values :=
    hfields.standard (by simp [reads_list reads_text]) (by simp)
  simp [ofData?, fields?, hkey, hoperator, hvalues]

theorem SelectorTerm.reads (t : SelectorTerm) : Reads SelectorTerm.ofData? t.toData t := by
  intro value h
  obtain ⟨fields, rfl, hfields⟩ := h.exists_fields
  have hexpressions : required fields "matchExpressions" (list? SelectorExpression.ofData?)
      = some t.expressions :=
    hfields.required (by simp) (reads_list SelectorExpression.reads t.expressions)
  simp [ofData?, fields?, hexpressions]

theorem VolumeSource.reads_onlyText (make : String → VolumeSource) (key name : String) :
    Reads (fun d => (onlyText? key d).map make) (.record [(key, .text name)]) (make name) := by
  intro value h
  obtain ⟨fields, rfl, hfields⟩ := h.exists_fields
  have hname : required fields key text? = some name :=
    hfields.required (by simp) (reads_text name)
  simp [onlyText?, fields?, hname]

theorem VolumeSource.reads_emptyDir :
    Reads (fun d => (d.fields? []).map fun _ => emptyDir) emptyDir.toField.2 emptyDir := by
  intro value h
  obtain ⟨fields, rfl, hfields⟩ := h.exists_fields
  rfl

/-- A source is read under the name of its alternative, whatever fields stand in front of it. -/
theorem VolumeSource.reads_field {name : String} {source : VolumeSource}
    {fields : List (String × Data)}
    (h : SameFields fields [("name", .text name), source.toField]) :
    alternative? fields VolumeSource.alternatives = some source := by
  cases source with
  | emptyDir =>
    exact h.alternative "emptyDir" (by simp [alternatives, toField]) (by simp [toField])
      reads_emptyDir
  | configMap name =>
    exact h.alternative "configMap" (by simp [alternatives, toField]) (by simp [toField])
      (reads_onlyText configMap "name" name)
  | secret name =>
    exact h.alternative "secret" (by simp [alternatives, toField]) (by simp [toField])
      (reads_onlyText secret "secretName" name)
  | persistentVolumeClaim name =>
    exact h.alternative "persistentVolumeClaim" (by simp [alternatives, toField])
      (by simp [toField]) (reads_onlyText persistentVolumeClaim "claimName" name)
  | hostPath path =>
    exact h.alternative "hostPath" (by simp [alternatives, toField]) (by simp [toField])
      (reads_onlyText hostPath "path" path)

theorem Volume.reads (v : Volume) : Reads Volume.ofData? v.toData v := by
  intro value h
  obtain ⟨fields, rfl, hfields⟩ := h.exists_fields
  have hname : required fields "name" text? = some v.name :=
    hfields.required (by simp) (reads_text v.name)
  have hsource : alternative? fields VolumeSource.alternatives = some v.source :=
    VolumeSource.reads_field hfields
  simp [ofData?, recordFields?, hname, hsource]

theorem VolumeMount.reads (m : VolumeMount) : Reads VolumeMount.ofData? m.toData m := by
  intro value h
  obtain ⟨fields, rfl, hfields⟩ := h.exists_fields
  have hname : required fields "name" text? = some m.name :=
    hfields.required (by simp) (reads_text m.name)
  have hpath : required fields "mountPath" text? = some m.path :=
    hfields.required (by simp) (reads_text m.path)
  have hreadOnly : standard fields "readOnly" bool? false = some m.readOnly :=
    hfields.standard (by simp [reads_bool]) (by simp)
  have hsubPath : settable fields "subPath" text? = some m.subPath :=
    hfields.settable (by simp) reads_text rfl
  simp [ofData?, fields?, hname, hpath, hreadOnly, hsubPath]

/-! ### Reading metadata and descriptors -/

theorem Target.reads (t : Target) : Reads Target.ofData? t.toData t := by
  rintro _ ⟨⟩
  cases t <;> decide

theorem MetadataItem.reads (item : MetadataItem) :
    Reads MetadataItem.ofData? item.toData item := by
  intro value h
  obtain ⟨fields, rfl, hfields⟩ := h.exists_fields
  have htarget : required fields "target" Target.ofData? = some item.target :=
    hfields.required (by simp) item.target.reads
  have hprocess : settable fields "processName" text? = some item.process :=
    hfields.settable (by simp) reads_text rfl
  have hversion : settable fields "deploymentVersion" word32? = some item.version :=
    hfields.settable (by simp) reads_word32 rfl
  have hentries : required fields "apply" table? = some item.entries :=
    hfields.required (by simp) (reads_table item.entries)
  simp [ofData?, fields?, htarget, hprocess, hversion, hentries]

theorem MetadataMaps.reads (m : MetadataMaps) : Reads MetadataMaps.ofData? m.toData m := by
  intro value h
  obtain ⟨fields, rfl, hfields⟩ := h.exists_fields
  have hlabels : required fields "labels" table? = some m.labels :=
    hfields.required (by simp) (reads_table m.labels)
  have hannotations : required fields "annotations" table? = some m.annotations :=
    hfields.required (by simp) (reads_table m.annotations)
  simp [ofData?, fields?, hlabels, hannotations]

private theorem bind_of_eq_some {α β : Type} {x : Option α} {next : α → Option β} {a : α} {b : β}
    (h : x = some a) (hnext : next a = some b) : (x >>= next) = some b := by
  rw [h]
  exact hnext

theorem Descriptor.reads (d : Descriptor) : Reads Descriptor.ofData? d.toData d := by
  intro value h
  obtain ⟨fields, rfl, hfields⟩ := h.exists_fields
  have hname : required fields "name" text? = some d.name :=
    hfields.required (by simp) (reads_text d.name)
  have hcommand : required fields "command" (list? text?) = some d.command :=
    hfields.required (by simp) (reads_texts d.command)
  have hinstanceCount : required fields "instanceCount" word32? = some d.instanceCount :=
    hfields.required (by simp) (reads_word32 d.instanceCount)
  have hroutable : required fields "routable" bool? = some d.routable :=
    hfields.required (by simp) (reads_bool d.routable)
  have hcontainerPorts : required fields "containerPorts" (list? ContainerPort.ofData?)
      = some d.containerPorts :=
    hfields.required (by simp) (reads_list ContainerPort.reads d.containerPorts)
  have hservicePorts : required fields "servicePorts" (list? ServicePort.ofData?)
      = some d.servicePorts :=
    hfields.required (by simp) (reads_list ServicePort.reads d.servicePorts)
  have hpublicServicePort :
      settable fields "publicServicePort" word16? = some d.publicServicePort :=
    hfields.settable (by simp) reads_word16 rfl
  have henvironment : required fields "environment" (list? EnvVar.ofData?)
      = some d.environment :=
    hfields.required (by simp) (reads_list EnvVar.reads d.environment)
  have hsecurityContext : settable fields "securityContext" SecurityContext.ofData?
      = some d.securityContext :=
    hfields.settable (by simp) SecurityContext.reads rfl
  have hresources : settable fields "resourceRequirements" Resources.ofData?
      = some d.resources :=
    hfields.settable (by simp) Resources.reads rfl
  have hnodeSelector : standard fields "nodeSelector" (list? SelectorTerm.ofData?) []
      = some d.nodeSelector :=
    hfields.standard (by simp [reads_list SelectorTerm.reads]) (by simp)
  have hvolumes : standard fields "volumes" (list? Volume.ofData?) [] = some d.volumes :=
    hfields.standard (by simp [reads_list Volume.reads]) (by simp)
  have hvolumeMounts : standard fields "volumeMounts" (list? VolumeMount.ofData?) []
      = some d.volumeMounts :=
    hfields.standard (by simp [reads_list VolumeMount.reads]) (by simp)
  have hreadinessProbe : settable fields "readinessProbe" Probe.ofData?
      = some d.readinessProbe :=
    hfields.settable (by simp) Probe.reads rfl
  have hlivenessProbe : settable fields "livenessProbe" Probe.ofData? = some d.livenessProbe :=
    hfields.settable (by simp) Probe.reads rfl
  have hstartupProbe : settable fields "startupProbe" Probe.ofData? = some d.startupProbe :=
    hfields.settable (by simp) Probe.reads rfl
  have hlifecycle : settable fields "lifecycleHooks" Lifecycle.ofData? = some d.lifecycle :=
    hfields.settable (by simp) Lifecycle.reads rfl
  have hdeployment : standard fields "deploymentMetadata" MetadataMaps.ofData? .empty
      = some d.deploymentMetadata :=
    hfields.standard (by simp [MetadataMaps.reads]) (by simp)
  have hservice : standard fields "serviceMetadata" MetadataMaps.ofData? .empty
      = some d.serviceMetadata :=
    hfields.standard (by simp [MetadataMaps.reads]) (by simp)
  have hpod : standard fields "podMetadata" MetadataMaps.ofData? .empty = some d.podMetadata :=
    hfields.standard (by simp [MetadataMaps.reads]) (by simp)
  -- One step for each field: rewriting below all the binders at once takes too long.
  exact bind_of_eq_some rfl <| bind_of_eq_some hname <| bind_of_eq_some hcommand <|
    bind_of_eq_some hinstanceCount <| bind_of_eq_some hroutable <|
    bind_of_eq_some hcontainerPorts <| bind_of_eq_some hservicePorts <|
    bind_of_eq_some hpublicServicePort <| bind_of_eq_some henvironment <|
    bind_of_eq_some hsecurityContext <| bind_of_eq_some hresources <|
    bind_of_eq_some hnodeSelector <| bind_of_eq_some hvolumes <| bind_of_eq_some hvolumeMounts <|
    bind_of_eq_some hreadinessProbe <| bind_of_eq_some hlivenessProbe <|
    bind_of_eq_some hstartupProbe <| bind_of_eq_some hlifecycle <|
    bind_of_eq_some hdeployment <| bind_of_eq_some hservice <| bind_of_eq_some hpod rfl

/-- Descriptors, metadata items, declarations of ports and groups of probes are read back from the
JSON values that they are written as. -/
theorem Descriptor.model_roundTrips :
    RoundTrips Descriptor.toData Descriptor.ofData? ∧
      RoundTrips MetadataItem.toData MetadataItem.ofData? ∧
      RoundTrips PortDeclaration.toData PortDeclaration.ofData? ∧
      RoundTrips Probes.toData Probes.ofData? :=
  ⟨.of_reads Descriptor.distinctKeys Descriptor.reads,
    .of_reads MetadataItem.distinctKeys MetadataItem.reads,
    .of_reads PortDeclaration.distinctKeys PortDeclaration.reads,
    .of_reads Probes.distinctKeys Probes.reads⟩

end ProcessPlan
