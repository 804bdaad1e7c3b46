import Mathlib.Data.List.Induction
import ProcessPlan.Proofs.Config.Scalar
import ProcessPlan.Proofs.Config.Specs

/-!
# The settings of a process

The block of a process is read in one pass, whatever the order of its nodes and however often a
setting stands there. Each node is a setting of one kind or sets nothing, and each field of a
process is set by the nodes of one kind alone: some fields have the value of the last node that says
anything, the others collect what all of them say.

## Main definitions

* `Config.SettingKind`, `Config.settingNodes`, `Config.settingBlocks`: the kinds of settings, and
  the nodes and blocks of a kind
* `Config.ReadAs`: what a node in the block of a process is read as

## Main results

* `Config.readAs_of_readProcessSetting`: what a node is read as, all kinds together
* `Config.last_of_readProcess`, `Config.collected_of_readProcess`: a field that the nodes of a kind
  replace, and one that they add to
* `Config.command_of_readProcess`, …, `Config.volumeMounts_of_readProcess`: each field of a process
-/

namespace ProcessPlan

namespace Config

open Kdl (Node Value)

/-! ### Kinds of settings -/

/-- The kinds of settings of a process. -/
inductive SettingKind where
  | command
  | units
  | routable
  | environment
  | securityContext
  | resources
  | nodeSelector
  | volume
  | volumeMount
  | lifecycle
deriving DecidableEq

/-- The kind of setting that a node of a name is, in either spelling. -/
def SettingKind.ofName? : String → Option SettingKind
  | "command" | "cmd" => some .command
  | "units" | "instances" => some .units
  | "routable" => some .routable
  | "environment" | "env" => some .environment
  | "security-context" | "security_context" => some .securityContext
  | "resources" => some .resources
  | "node-selector" | "node_selector" => some .nodeSelector
  | "volume" => some .volume
  | "volume-mount" | "volume_mount" => some .volumeMount
  | "lifecycle" => some .lifecycle
  | _ => none

/-- The nodes of a block that are settings of one kind. -/
def settingNodes (kind : SettingKind) (block : List Node) : List Node :=
  block.filter fun node => SettingKind.ofName? node.name = some kind

/-- How a node is read depends on its name only through the kind of its setting. -/
theorem readProcessSetting_eq (process : String) (node : Node) :
    readProcessSetting process node = match SettingKind.ofName? node.name with
      | some .command => .ok (some (.command node.argumentTexts))
      | some .units => optional (fun value => (readUnits process value).map .units) node.argument?
      | some .routable => .ok (some (.routable ((node.argument?.bind Value.bool?).getD true)))
      | some .environment => .ok (some (.environment (readEnvironment node)))
      | some .securityContext =>
        (readSecurityContext node).map fun context => some (.securityContext context)
      | some .resources => readBlock node (fun block => .ok (resourcesOfBlock block)) .resources
      | some .nodeSelector => readBlock node readTerms .nodeSelector
      | some .volume => (readVolume node).map fun volume => some (.volume volume)
      | some .volumeMount => (readVolumeMount node).map fun mount => some (.volumeMount mount)
      | some .lifecycle => readBlock node readLifecycle .lifecycle
      | none => .ok none := by
  unfold readProcessSetting SettingKind.ofName?
  generalize node.name = name
  split
  case h_17 => simp
  all_goals rfl

variable {process : String} {node : Node} {setting : Option ProcessSetting}

theorem readUnits_eq_ok_iff {value : Value} {count : UInt32} :
    readUnits process value = .ok count ↔ value = .int count.toNat ∧ count ≠ 0 := by
  constructor
  · intro h
    have hcount := ne_zero_of_readUnits h
    obtain ⟨read, hread, h⟩ := bind_eq_ok_iff.1 h
    split at h
    · cases h
    · cases h
      exact ⟨readCount_eq_ok_iff.1 hread, hcount⟩
  · rintro ⟨hvalue, hcount⟩
    refine bind_eq_ok_iff.2 ⟨count, readCount_eq_ok_iff.2 hvalue, ?_⟩
    rw [if_neg hcount]
    rfl

/-- What a node in the block of a process is read as. A node that sets nothing is none. -/
inductive ReadAs (process : String) (node : Node) : Option ProcessSetting → Prop where
  | command (kind : SettingKind.ofName? node.name = some .command) :
    ReadAs process node (some (.command node.argumentTexts))
  | units {count : UInt32} (kind : SettingKind.ofName? node.name = some .units)
      (value : node.argument? = some (.int count.toNat)) (positive : count ≠ 0) :
    ReadAs process node (some (.units count))
  | noUnits (kind : SettingKind.ofName? node.name = some .units) (value : node.argument? = none) :
    ReadAs process node none
  | routable (kind : SettingKind.ofName? node.name = some .routable) :
    ReadAs process node (some (.routable ((node.argument?.bind Value.bool?).getD true)))
  | environment (kind : SettingKind.ofName? node.name = some .environment) :
    ReadAs process node (some (.environment (readEnvironment node)))
  | securityContext {context : SecurityContext}
      (kind : SettingKind.ofName? node.name = some .securityContext)
      (read : readSecurityContext node = .ok context) :
    ReadAs process node (some (.securityContext context))
  | resources {block : List Node} (kind : SettingKind.ofName? node.name = some .resources)
      (body : node.children = some block) :
    ReadAs process node (some (.resources (resourcesOfBlock block)))
  | nodeSelector {block : List Node} {terms : List SelectorTerm}
      (kind : SettingKind.ofName? node.name = some .nodeSelector)
      (body : node.children = some block) (read : readTerms block = .ok terms) :
    ReadAs process node (some (.nodeSelector terms))
  | volume {v : Volume} (kind : SettingKind.ofName? node.name = some .volume)
      (read : readVolume node = .ok v) : ReadAs process node (some (.volume v))
  | volumeMount {mount : VolumeMount} (kind : SettingKind.ofName? node.name = some .volumeMount)
      (read : readVolumeMount node = .ok mount) : ReadAs process node (some (.volumeMount mount))
  | lifecycle {block : List Node} {hooks : Lifecycle}
      (kind : SettingKind.ofName? node.name = some .lifecycle)
      (body : node.children = some block) (read : readLifecycle block = .ok hooks) :
    ReadAs process node (some (.lifecycle hooks))
  | noResources (kind : SettingKind.ofName? node.name = some .resources)
      (body : node.children = none) : ReadAs process node none
  | noSelector (kind : SettingKind.ofName? node.name = some .nodeSelector)
      (body : node.children = none) : ReadAs process node none
  | noLifecycle (kind : SettingKind.ofName? node.name = some .lifecycle)
      (body : node.children = none) : ReadAs process node none
  | unknown (kind : SettingKind.ofName? node.name = none) : ReadAs process node none

theorem readBlock_cases {α : Type} {read : List Node → Read α} {make : α → ProcessSetting}
    (h : readBlock node read make = .ok setting) :
    (node.children = none ∧ setting = none) ∨
      ∃ block a, node.children = some block ∧ read block = .ok a ∧ setting = some (make a) := by
  rw [readBlock] at h
  cases hbody : node.children with
  | none =>
    rw [hbody] at h
    exact .inl ⟨rfl, (Except.ok.inj h).symm⟩
  | some block =>
    rw [hbody] at h
    obtain ⟨_, hmake, rfl⟩ := map_eq_ok_iff.1 h
    obtain ⟨a, hread, rfl⟩ := map_eq_ok_iff.1 hmake
    exact .inr ⟨block, a, rfl, hread, rfl⟩

theorem readAs_of_readProcessSetting (h : readProcessSetting process node = .ok setting) :
    ReadAs process node setting := by
  rw [readProcessSetting_eq] at h
  cases hkind : SettingKind.ofName? node.name with
  | none =>
    rw [hkind] at h
    cases h
    exact .unknown hkind
  | some kind =>
    rw [hkind] at h
    cases kind with
    | command =>
      cases h
      exact .command hkind
    | routable =>
      cases h
      exact .routable hkind
    | environment =>
      cases h
      exact .environment hkind
    | units =>
      cases hvalue : node.argument? with
      | none =>
        rw [hvalue] at h
        cases h
        exact .noUnits hkind hvalue
      | some value =>
        rw [hvalue] at h
        obtain ⟨_, hmake, rfl⟩ := map_eq_ok_iff.1 h
        obtain ⟨count, hread, rfl⟩ := map_eq_ok_iff.1 hmake
        obtain ⟨rfl, hcount⟩ := readUnits_eq_ok_iff.1 hread
        exact .units hkind hvalue hcount
    | securityContext =>
      obtain ⟨context, hread, rfl⟩ := map_eq_ok_iff.1 h
      exact .securityContext hkind hread
    | volume =>
      obtain ⟨v, hread, rfl⟩ := map_eq_ok_iff.1 h
      exact .volume hkind hread
    | volumeMount =>
      obtain ⟨mount, hread, rfl⟩ := map_eq_ok_iff.1 h
      exact .volumeMount hkind hread
    | resources =>
      rcases readBlock_cases h with ⟨hbody, rfl⟩ | ⟨block, quantities, hbody, hread, rfl⟩
      · exact .noResources hkind hbody
      · cases hread
        exact .resources hkind hbody
    | nodeSelector =>
      rcases readBlock_cases h with ⟨hbody, rfl⟩ | ⟨block, terms, hbody, hread, rfl⟩
      · exact .noSelector hkind hbody
      · exact .nodeSelector hkind hbody hread
    | lifecycle =>
      rcases readBlock_cases h with ⟨hbody, rfl⟩ | ⟨block, hooks, hbody, hread, rfl⟩
      · exact .noLifecycle hkind hbody
      · exact .lifecycle hkind hbody hread

/-! ### Fields -/

section Fields

variable {γ : Type} {block : List Node} {settings : List (Option ProcessSetting)}

/-- A field that some settings replace has the value of the last of these. -/
theorem last_foldl_apply {field : ProcessSpec → Option γ} {select : ProcessSetting → Option γ}
    (hfield : ∀ spec s, field (s.apply spec) = (select s).or (field spec))
    (settings : List ProcessSetting) (spec : ProcessSpec) :
    field (settings.foldl ProcessSetting.apply spec)
      = (settings.filterMap select).getLast?.or (field spec) := by
  induction settings using List.reverseRecOn with
  | nil => rfl
  | append_singleton before last ih =>
    rw [List.foldl_append, List.foldl_cons, List.foldl_nil, hfield, ih, List.filterMap_append,
      List.getLast?_append]
    cases h : select last <;> simp [h]

/-- A field that some settings add to has what all of these add. -/
theorem collected_foldl_apply {field : ProcessSpec → List γ}
    {select : ProcessSetting → Option (List γ)}
    (hfield : ∀ spec s, field (s.apply spec) = field spec ++ (select s).getD [])
    (settings : List ProcessSetting) (spec : ProcessSpec) :
    field (settings.foldl ProcessSetting.apply spec)
      = field spec ++ (settings.filterMap select).flatten := by
  induction settings generalizing spec with
  | nil => simp
  | cons first rest ih =>
    rw [List.foldl_cons, ih, hfield, List.append_assoc]
    cases h : select first <;> simp [h]

/-- What is selected from the settings of a block is what the nodes of one kind say. -/
theorem filterMap_settings {select : ProcessSetting → Option γ} {kind : SettingKind}
    {view : Node → Option γ}
    (hview : ∀ node setting, ReadAs process node setting →
      setting.bind select = if SettingKind.ofName? node.name = some kind then view node else none)
    (hread : block.mapM (readProcessSetting process) = .ok settings) :
    (settings.filterMap id).filterMap select = (settingNodes kind block).filterMap view := by
  rw [filterMap_eq_of_mapM hread fun node setting h =>
    hview node setting (readAs_of_readProcessSetting h), settingNodes, List.filterMap_filter]
  simp only [decide_eq_true_eq]

end Fields

section Process

variable {spec : ProcessSpec}

/-- The settings of a process node, as they are read. -/
theorem exists_settings (h : readProcess node = .ok spec) : ∃ settings,
    node.argumentText? = some spec.name ∧
      node.childNodes.mapM (readProcessSetting spec.name) = .ok settings ∧
      (settings.filterMap id).foldl ProcessSetting.apply
        (.blank spec.name ((node.propertyBool? "routable").getD false)) = spec := by
  have hname := name_of_readProcess h
  obtain ⟨name, settings, hname', hread, hspec⟩ := readProcess_eq_ok_iff.1 h
  obtain rfl : name = spec.name := Option.some.inj (hname'.symm.trans hname)
  exact ⟨settings, hname, hread, hspec⟩

/-- A field that nodes of one kind replace is set by the last of them that says anything. -/
theorem last_of_readProcess {γ : Type} (h : readProcess node = .ok spec)
    (field : ProcessSpec → Option γ) (select : ProcessSetting → Option γ) (kind : SettingKind)
    (view : Node → Option γ)
    (hfield : ∀ spec s, field (s.apply spec) = (select s).or (field spec))
    (hview : ∀ node setting, ReadAs spec.name node setting →
      setting.bind select = if SettingKind.ofName? node.name = some kind then view node else none) :
    field spec = ((settingNodes kind node.childNodes).filterMap view).getLast?.or
      (field (.blank spec.name ((node.propertyBool? "routable").getD false))) := by
  obtain ⟨settings, -, hread, hspec⟩ := exists_settings h
  rw [← filterMap_settings hview hread, ← last_foldl_apply hfield, hspec]

/-- A field that nodes of one kind add to has what all of them add, in their order. -/
theorem collected_of_readProcess {γ : Type} (h : readProcess node = .ok spec)
    (field : ProcessSpec → List γ) (select : ProcessSetting → Option (List γ)) (kind : SettingKind)
    (view : Node → List γ)
    (hfield : ∀ spec s, field (s.apply spec) = field spec ++ (select s).getD [])
    (hview : ∀ node setting, ReadAs spec.name node setting → setting.bind select
      = if SettingKind.ofName? node.name = some kind then some (view node) else none) :
    field spec = field (.blank spec.name ((node.propertyBool? "routable").getD false)) ++
      (settingNodes kind node.childNodes).flatMap view := by
  obtain ⟨settings, -, hread, hspec⟩ := exists_settings h
  have hsettings : (settings.filterMap id).filterMap select
      = (settingNodes kind node.childNodes).filterMap (some ∘ view) :=
    filterMap_settings hview hread
  rw [List.filterMap_eq_map] at hsettings
  rw [← hspec, collected_foldl_apply hfield, hsettings, hspec, List.flatMap_def]

theorem command_of_readProcess (h : readProcess node = .ok spec) : spec.command
    = ((settingNodes .command node.childNodes).getLast?.map Node.argumentTexts).getD [] := by
  have hlast := last_of_readProcess h (fun spec => some spec.command)
    (fun | .command words => some words | _ => none) .command (some ∘ Node.argumentTexts)
    (by rintro spec (_ | _) <;> rfl) (by rintro node setting ⟨⟩ <;> simp [*])
  rw [List.filterMap_eq_map, List.getLast?_map, Option.or_some, Option.some.injEq] at hlast
  exact hlast

/-- The units are the first argument of the last node that has one. -/
theorem units_eq_of_readProcess (h : readProcess node = .ok spec) :
    spec.units.map (fun count => Value.int count.toNat)
      = ((settingNodes .units node.childNodes).filterMap Node.argument?).getLast? := by
  have hlast := last_of_readProcess h (fun spec => spec.units.map fun n => Value.int n.toNat)
    (fun | .units count => some (.int count.toNat) | _ => none) .units Node.argument?
    (by rintro spec (_ | _) <;> rfl) (by rintro node setting ⟨⟩ <;> simp [*])
  rw [hlast]
  exact Option.or_none

theorem routable_of_readProcess (h : readProcess node = .ok spec) :
    spec.routable = ((settingNodes .routable node.childNodes).getLast?.map fun node =>
      (node.argument?.bind Value.bool?).getD true).getD
        ((node.propertyBool? "routable").getD false) := by
  have hlast := last_of_readProcess h (fun spec => some spec.routable)
    (fun | .routable value => some value | _ => none) .routable
    (some ∘ fun node => (node.argument?.bind Value.bool?).getD true)
    (by rintro spec (_ | _) <;> rfl) (by rintro node setting ⟨⟩ <;> simp [*])
  rw [List.filterMap_eq_map, List.getLast?_map, Option.or_some, Option.some.injEq] at hlast
  exact hlast

theorem environment_of_readProcess (h : readProcess node = .ok spec) : spec.environment
    = (settingNodes .environment node.childNodes).flatMap readEnvironment :=
  collected_of_readProcess h (·.environment) (fun | .environment vars => some vars | _ => none)
    .environment readEnvironment (by rintro spec (_ | _) <;> simp [ProcessSetting.apply])
    (by rintro node setting ⟨⟩ <;> simp [*])

theorem securityContext_of_readProcess (h : readProcess node = .ok spec) :
    spec.securityContext.map .ok
      = (settingNodes .securityContext node.childNodes).getLast?.map readSecurityContext := by
  have hlast := last_of_readProcess h
    (fun spec => spec.securityContext.map fun context => (.ok context : Read SecurityContext))
    (fun | .securityContext context => some (.ok context) | _ => none) .securityContext
    (some ∘ readSecurityContext) (by rintro spec (_ | _) <;> rfl)
    (by rintro node setting ⟨⟩ <;> simp [*])
  rw [List.filterMap_eq_map, List.getLast?_map] at hlast
  rw [hlast]
  exact Option.or_none

/-- The blocks of the settings of one kind, as far as they have one. -/
def settingBlocks (kind : SettingKind) (block : List Node) : List (List Node) :=
  (settingNodes kind block).filterMap Node.children

theorem getLast?_settingBlocks_map {γ : Type} (kind : SettingKind) (block : List Node)
    (view : List Node → γ) :
    ((settingNodes kind block).filterMap fun node => node.children.map view).getLast?
      = (settingBlocks kind block).getLast?.map view := by
  rw [settingBlocks, ← List.getLast?_map, List.map_filterMap]

theorem resources_of_readProcess (h : readProcess node = .ok spec) : spec.resources
    = (settingBlocks .resources node.childNodes).getLast?.map resourcesOfBlock := by
  have hlast := last_of_readProcess h (·.resources)
    (fun | .resources quantities => some quantities | _ => none) .resources
    (fun node => node.children.map resourcesOfBlock) (by rintro spec (_ | _) <;> rfl)
    (by rintro node setting ⟨⟩ <;> simp [*])
  rw [hlast, getLast?_settingBlocks_map]
  exact Option.or_none

theorem nodeSelector_of_readProcess (h : readProcess node = .ok spec) :
    ((settingBlocks .nodeSelector node.childNodes).getLast?.map readTerms).getD (.ok [])
      = .ok spec.nodeSelector := by
  have hlast := last_of_readProcess h
    (fun spec => some (.ok spec.nodeSelector : Read (List SelectorTerm)))
    (fun | .nodeSelector terms => some (.ok terms) | _ => none) .nodeSelector
    (fun node => node.children.map readTerms) (by rintro spec (_ | _) <;> rfl)
    (by rintro node setting ⟨⟩ <;> simp [*])
  rw [getLast?_settingBlocks_map, Option.or_some, Option.some.injEq] at hlast
  exact hlast.symm

theorem lifecycle_of_readProcess (h : readProcess node = .ok spec) : spec.lifecycle.map .ok
    = (settingBlocks .lifecycle node.childNodes).getLast?.map readLifecycle := by
  have hlast := last_of_readProcess h
    (fun spec => spec.lifecycle.map fun hooks => (.ok hooks : Read Lifecycle))
    (fun | .lifecycle hooks => some (.ok hooks) | _ => none) .lifecycle
    (fun node => node.children.map readLifecycle) (by rintro spec (_ | _) <;> rfl)
    (by rintro node setting ⟨⟩ <;> simp [*])
  rw [hlast, getLast?_settingBlocks_map]
  exact Option.or_none

theorem volumes_of_readProcess (h : readProcess node = .ok spec) :
    spec.volumes.map .ok = (settingNodes .volume node.childNodes).map readVolume := by
  have hall := collected_of_readProcess h
    (fun spec => spec.volumes.map fun v => (.ok v : Read Volume))
    (fun | .volume v => some [.ok v] | _ => none) .volume (fun node => [readVolume node])
    (by rintro spec (_ | _) <;> simp [ProcessSetting.apply])
    (by rintro node setting ⟨⟩ <;> simp [*])
  exact hall.trans List.map_eq_flatMap.symm

theorem volumeMounts_of_readProcess (h : readProcess node = .ok spec) :
    spec.volumeMounts.map .ok
      = (settingNodes .volumeMount node.childNodes).map readVolumeMount := by
  have hall := collected_of_readProcess h
    (fun spec => spec.volumeMounts.map fun mount => (.ok mount : Read VolumeMount))
    (fun | .volumeMount mount => some [.ok mount] | _ => none) .volumeMount
    (fun node => [readVolumeMount node])
    (by rintro spec (_ | _) <;> simp [ProcessSetting.apply])
    (by rintro node setting ⟨⟩ <;> simp [*])
  exact hall.trans List.map_eq_flatMap.symm

end Process

end Config

end ProcessPlan
