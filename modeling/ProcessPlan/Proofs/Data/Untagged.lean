import ProcessPlan.Data.Descriptor

/-!
# Trees without tags

Every format can show records, lists, texts, integers and truth values, and all data of a descriptor
is made of these, except that the action of a hook is a variant.

## Main definitions

* `Data.Untagged`: a tree of records, lists, texts, integers and truth values
* `Descriptor.HasHook`: some hook is set

## Main results

* `Data.Untagged.plain_eq`: such a tree is its own plain tree
* `Descriptor.untagged_plain`: the plain tree of a descriptor has no tags
* `Descriptor.untagged_toData`: nor has the tree of a descriptor without hooks
-/

namespace ProcessPlan

namespace Data

/-- A tree of records, lists, texts, integers and truth values. The integers have at most 64 bits,
as a format need not hold any other. -/
inductive Untagged : Data → Prop where
  | bool (b : Bool) : Untagged (.bool b)
  | int {n : Int} (h : n.natAbs < UInt64.size) : Untagged (.int n)
  | text (s : String) : Untagged (.text s)
  | list {items : List Data} (h : ∀ item ∈ items, Untagged item) : Untagged (.list items)
  | record {fields : List (String × Data)} (h : ∀ field ∈ fields, Untagged field.2) :
    Untagged (.record fields)

/-- A tree without tags is its own plain tree. -/
theorem Untagged.plain_eq {d : Data} (h : d.Untagged) : d.plain = d := by
  induction h with
  | bool | int | text => rfl
  | list h ih =>
    rw [plain, plainItems_eq_map, List.map_congr_left ih, List.map_id']
  | @record fields h ih =>
    have hfields : fields.map (fun field => (field.1, plain field.2)) = fields.map id :=
      List.map_congr_left fun field hfield => Prod.ext rfl (ih field hfield)
    rw [plain, plainFields_eq_map, hfields, List.map_id]

/-- The plain tree of a variant without tags in it. -/
theorem untagged_plain_variant {name : String} {payload : Data} (h : payload.Untagged) :
    (variant name payload).plain.Untagged := by
  rw [plain, h.plain_eq]
  exact .record (by simp [h])

/-! ### Fields without tags -/

/-- The values of fields have no tags. -/
def UntaggedFields (fields : List (String × Data)) : Prop := ∀ field ∈ fields, field.2.Untagged

theorem UntaggedFields.map_plain {fields : List (String × Data)} (h : UntaggedFields fields) :
    fields.map (fun field => (field.1, plain field.2)) = fields := by
  have hrecord := (Untagged.record h).plain_eq
  rwa [plain, plainFields_eq_map, record.injEq] at hrecord

@[simp] theorem untaggedFields_nil : UntaggedFields [] := by simp [UntaggedFields]

@[simp] theorem untaggedFields_cons {field : String × Data} {rest : List (String × Data)} :
    UntaggedFields (field :: rest) ↔ field.2.Untagged ∧ UntaggedFields rest := by
  simp [UntaggedFields]

@[simp] theorem untaggedFields_append {fields more : List (String × Data)} :
    UntaggedFields (fields ++ more) ↔ UntaggedFields fields ∧ UntaggedFields more :=
  List.forall_mem_append

@[simp] theorem untagged_record {fields : List (String × Data)} :
    (record fields).Untagged ↔ UntaggedFields fields :=
  ⟨fun h => by cases h; assumption, .record⟩

@[simp] theorem optional_none {α : Type} (key : String) (write : α → Data) :
    optional key write none = [] := rfl

@[simp] theorem optional_some {α : Type} (key : String) (write : α → Data) (value : α) :
    optional key write (some value) = [(key, write value)] := rfl

attribute [simp] Untagged.bool Untagged.text

@[simp] theorem untaggedFields_optional {α : Type} {write : α → Data} (h : ∀ a, (write a).Untagged)
    (key : String) (value : Option α) : UntaggedFields (optional key write value) := by
  cases value <;> simp [optional, h]

@[simp] theorem untagged_list_map {α : Type} {write : α → Data} (h : ∀ a, (write a).Untagged)
    (values : List α) : (list (values.map write)).Untagged :=
  .list (by simp [h])

@[simp] theorem untaggedFields_nonempty {α : Type} {write : α → Data} (h : ∀ a, (write a).Untagged)
    (key : String) (values : List α) : UntaggedFields (nonempty key write values) := by
  unfold nonempty
  split <;> simp [untagged_list_map h]

@[simp] theorem untagged_texts (values : List String) : (texts values).Untagged :=
  untagged_list_map .text values

@[simp] theorem untagged_table (entries : Table String) : (table entries).Untagged :=
  .record (List.forall_mem_map.2 fun _ _ => .text _)

@[simp] theorem untagged_word16 (n : UInt16) : (word16 n).Untagged :=
  .int (Nat.lt_trans n.toNat_lt (by decide))

@[simp] theorem untagged_word32 (n : UInt32) : (word32 n).Untagged :=
  .int (Nat.lt_trans n.toNat_lt (by decide))

@[simp] theorem untagged_signed64 (n : Int64) : (signed64 n).Untagged := by
  have hle := n.le_toInt
  have hlt := n.toInt_lt
  exact .int (by rw [UInt64.size]; omega)

end Data

open Data

/-! ### The data of a descriptor -/

@[simp] theorem Protocol.untagged_toData (p : Protocol) : p.toData.Untagged := .text _

@[simp] theorem ContainerPort.untagged_toData (p : ContainerPort) : p.toData.Untagged := by
  simp [toData]

@[simp] theorem ServicePort.untagged_toData (p : ServicePort) : p.toData.Untagged := by
  simp [toData]

@[simp] theorem ProbeAction.untagged_toField (a : ProbeAction) : a.toField.2.Untagged := by
  cases a <;> simp [toField]

@[simp] theorem Probe.untagged_toData (p : Probe) : p.toData.Untagged := by
  simp [toData]

@[simp] theorem EnvVar.untagged_toData (v : EnvVar) : v.toData.Untagged := by
  simp [toData]

@[simp] theorem SecurityContext.untagged_toData (c : SecurityContext) : c.toData.Untagged := by
  simp [toData]

@[simp] theorem Resources.untagged_toData (r : Resources) : r.toData.Untagged := by
  have hfield (key : String) (entries : Table String) :
      UntaggedFields (tableField key entries) := by
    unfold tableField
    split <;> simp
  simp [toData, hfield]

@[simp] theorem SelectorExpression.untagged_toData (e : SelectorExpression) :
    e.toData.Untagged := by
  simp [toData, SelectorOperator.toData]

@[simp] theorem SelectorTerm.untagged_toData (t : SelectorTerm) : t.toData.Untagged := by
  simp [toData]

@[simp] theorem VolumeSource.untagged_toField (v : VolumeSource) : v.toField.2.Untagged := by
  cases v <;> simp [toField]

@[simp] theorem Volume.untagged_toData (v : Volume) : v.toData.Untagged := by
  simp [toData]

@[simp] theorem VolumeMount.untagged_toData (m : VolumeMount) : m.toData.Untagged := by
  simp [toData]

@[simp] theorem MetadataMaps.untagged_toData (m : MetadataMaps) : m.toData.Untagged := by
  simp [toData]

/-! ### Hooks -/

/-- The action of a hook is a variant. -/
theorem HookAction.not_untagged_toData (a : HookAction) : ¬ a.toData.Untagged := by
  cases a <;> rintro ⟨⟩

theorem HookAction.untagged_plain (a : HookAction) : a.toData.plain.Untagged := by
  cases a <;> exact untagged_plain_variant (by simp)

theorem Lifecycle.untagged_toData_iff {l : Lifecycle} :
    l.toData.Untagged ↔ l.postStart = none ∧ l.preStop = none := by
  rcases l with ⟨_ | postStart, _ | preStop⟩ <;>
    simp [toData, HookAction.not_untagged_toData]

@[simp] theorem Lifecycle.untagged_plain (l : Lifecycle) : l.toData.plain.Untagged := by
  rcases l with ⟨_ | postStart, _ | preStop⟩ <;>
    simp [toData, plain, HookAction.untagged_plain]

namespace Descriptor

/-- Some hook is set. -/
def HasHook (d : Descriptor) : Prop :=
  ∃ l, d.lifecycle = some l ∧ (l.postStart.isSome ∨ l.preStop.isSome)

/-- The fields of a descriptor up to its hooks. -/
def fieldsBeforeHooks (d : Descriptor) : List (String × Data) :=
  [("name", .text d.name), ("command", texts d.command),
    ("instanceCount", word32 d.instanceCount), ("routable", .bool d.routable),
    ("containerPorts", .list (d.containerPorts.map ContainerPort.toData)),
    ("servicePorts", .list (d.servicePorts.map ServicePort.toData))] ++
  optional "publicServicePort" word16 d.publicServicePort ++
  [("environment", .list (d.environment.map EnvVar.toData))] ++
  optional "securityContext" SecurityContext.toData d.securityContext ++
  optional "resourceRequirements" Resources.toData d.resources ++
  nonempty "nodeSelector" SelectorTerm.toData d.nodeSelector ++
  nonempty "volumes" Volume.toData d.volumes ++
  nonempty "volumeMounts" VolumeMount.toData d.volumeMounts ++
  optional "readinessProbe" Probe.toData d.readinessProbe ++
  optional "livenessProbe" Probe.toData d.livenessProbe ++
  optional "startupProbe" Probe.toData d.startupProbe

/-- The fields of a descriptor after its hooks. -/
def fieldsAfterHooks (d : Descriptor) : List (String × Data) :=
  [("deploymentMetadata", d.deploymentMetadata.toData),
    ("serviceMetadata", d.serviceMetadata.toData), ("podMetadata", d.podMetadata.toData)]

theorem toData_eq (d : Descriptor) :
    d.toData = .record (d.fieldsBeforeHooks ++
      optional "lifecycleHooks" Lifecycle.toData d.lifecycle ++ d.fieldsAfterHooks) := rfl

theorem untaggedFields_beforeHooks (d : Descriptor) : UntaggedFields d.fieldsBeforeHooks := by
  simp [fieldsBeforeHooks]

theorem untaggedFields_afterHooks (d : Descriptor) : UntaggedFields d.fieldsAfterHooks := by
  simp [fieldsAfterHooks]

/-- The data of a descriptor has tags exactly if a hook is set. -/
theorem untagged_toData_iff {d : Descriptor} : d.toData.Untagged ↔ ¬ d.HasHook := by
  rw [toData_eq, untagged_record, untaggedFields_append, untaggedFields_append]
  simp only [untaggedFields_beforeHooks, untaggedFields_afterHooks, HasHook]
  cases d.lifecycle with
  | none => simp
  | some l => simp [Lifecycle.untagged_toData_iff]

/-- In the plain tree of a descriptor, the hooks alone have changed. -/
theorem plain_toData (d : Descriptor) :
    d.toData.plain = .record (d.fieldsBeforeHooks ++
      optional "lifecycleHooks" (fun l => l.toData.plain) d.lifecycle ++ d.fieldsAfterHooks) := by
  rw [toData_eq, plain, plainFields_eq_map, List.map_append, List.map_append,
    d.untaggedFields_beforeHooks.map_plain, d.untaggedFields_afterHooks.map_plain]
  cases d.lifecycle <;> simp

/-- The plain tree of a descriptor has no tags. -/
theorem untagged_plain (d : Descriptor) : d.toData.plain.Untagged := by
  simp [plain_toData, untaggedFields_beforeHooks, untaggedFields_afterHooks]

end Descriptor

end ProcessPlan
