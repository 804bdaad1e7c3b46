import ProcessPlan.Proofs.Config.Settings
import ProcessPlan.Proofs.Last
import ProcessPlan.Proofs.Table

/-!
# The process that a node describes

What a process node says can be read off field by field, without following how it is read: which
node counts for a field, and what stands in it. Below the settings with a block of their own it is
the same once more: all nodes for limits make up one table in which the last quantity of a name
counts, and of several actions for one moment the last one is the hook. A node describes one
process, so only the order among settings of one kind matters.

## Main definitions

* `Config.Contributes`, `Config.ResourcesOf`, `Config.HooksOf`: what an environment node, a block of
  resources and a block of hooks say
* `ProcessSpec.SetBy`: the process that a node describes, field by field
* `Config.SameSettings`: the settings of each kind are the same, in the same order

## Main results

* `Config.readExpression_eq_ok_iff`: what a condition is read as
* `ProcessSpec.SetBy.unique`: a node describes one process
* `Config.readProcess_setBy`: it is the one that is read
-/

namespace ProcessPlan

namespace Config

open Kdl (Node Value)

variable {node : Node}

/-! ### Environment -/

/-- The variables of an environment node: one for each node of its block, or without a block that of
a text `NAME=value`, cut at the first equals sign. -/
inductive Contributes (node : Node) : List EnvVar → Prop where
  | block {block : List Node} (body : node.children = some block) :
    Contributes node (block.map envVarOfNode)
  | pair {text : String} {name value : List Char} (body : node.children = none)
      (argument : node.argumentText? = some text) (cut : text.toList = name ++ '=' :: value)
      (first : '=' ∉ name) :
    Contributes node [⟨Text.trim (.ofList name), Text.trim (.ofList value)⟩]
  | nothing (body : node.children = none)
      (argument : ∀ text, node.argumentText? = some text → '=' ∉ text.toList) :
    Contributes node []

theorem envVarOfText?_eq_some {text : String} {name value : List Char}
    (hcut : text.toList = name ++ '=' :: value) (hfirst : '=' ∉ name) :
    envVarOfText? text = some ⟨Text.trim (.ofList name), Text.trim (.ofList value)⟩ := by
  rw [envVarOfText?, Text.cut, Text.cutChars_eq_some_iff.2 ⟨hcut, hfirst⟩]
  rfl

theorem envVarOfText?_eq_none {text : String} (h : '=' ∉ text.toList) :
    envVarOfText? text = none := by
  rw [envVarOfText?, Text.cut, Text.cutChars_eq_none_iff.2 h]
  rfl

/-- What is read of an environment node is what it contributes. -/
theorem contributes_readEnvironment (node : Node) : Contributes node (readEnvironment node) := by
  unfold readEnvironment
  split
  · next block hbody => exact .block hbody
  · next hbody =>
    cases htext : node.argumentText? with
    | none => exact .nothing hbody (by simp [htext])
    | some text =>
      by_cases hmem : '=' ∈ text.toList
      · obtain ⟨name, value, hcut, hfirst⟩ := List.eq_append_cons_of_mem hmem
        rw [Option.bind_some, envVarOfText?_eq_some hcut hfirst]
        exact .pair hbody htext hcut hfirst
      · rw [Option.bind_some, envVarOfText?_eq_none hmem]
        exact .nothing hbody fun other hother => Option.some.inj (htext.symm.trans hother) ▸ hmem

/-- A node contributes one list of variables. -/
theorem Contributes.eq_readEnvironment {vars : List EnvVar} (h : Contributes node vars) :
    vars = readEnvironment node := by
  unfold readEnvironment
  cases h with
  | block hbody => rw [hbody]
  | pair hbody htext hcut hfirst =>
    rw [hbody, htext, Option.bind_some, envVarOfText?_eq_some hcut hfirst]
    rfl
  | nothing hbody htext =>
    rw [hbody]
    cases h : node.argumentText? with
    | none => rfl
    | some text =>
      rw [Option.bind_some, envVarOfText?_eq_none (htext text h)]
      rfl

/-! ### Resources -/

/-- A table has the quantities that all nodes of a name in a block hold: under each key the last one
that has a text. -/
def HoldsQuantities (name : String) (block : List Node) (table : Table String) : Prop :=
  ∀ key value, table.find? key = some value ↔ ∃ before node after,
    (block.filter (·.name = name)).flatMap Node.childNodes = before ++ node :: after ∧
    node.name = key ∧ argumentPlainText? node = some value ∧
    ∀ later ∈ after, later.name = key → argumentPlainText? later = none

theorem quantity?_eq_some_iff {entry : String × String} :
    quantity? node = some entry ↔ node.name = entry.1 ∧ argumentPlainText? node = some entry.2 := by
  obtain ⟨key, value⟩ := entry
  simp only [quantity?, Option.map_eq_some_iff, Prod.mk.injEq]
  constructor
  · rintro ⟨text, htext, hname, rfl⟩
    exact ⟨hname, htext⟩
  · rintro ⟨hname, htext⟩
    exact ⟨value, htext, hname, rfl⟩

theorem holdsQuantities (name : String) (block : List Node) :
    HoldsQuantities name block (quantities name block) := by
  intro key value
  rw [quantities, ← List.filterMap_flatMap, Table.find?_ofList_eq_some_iff]
  generalize (block.filter (·.name = name)).flatMap Node.childNodes = nodes
  constructor
  · rintro ⟨before, after, hsplit, hafter⟩
    obtain ⟨front, rest, rfl, -, hrest⟩ := List.filterMap_eq_append_iff.1 hsplit
    obtain ⟨silent, node, back, rfl, -, hnode, rfl⟩ := List.filterMap_eq_cons_iff.1 hrest
    obtain ⟨hname, htext⟩ := quantity?_eq_some_iff.1 hnode
    refine ⟨front ++ silent, node, back, by simp, hname, htext, fun later hlater hkey => ?_⟩
    refine Option.eq_none_iff_forall_ne_some.2 fun text htext => ?_
    exact hafter (key, text) (List.mem_filterMap.2
      ⟨later, hlater, quantity?_eq_some_iff.2 ⟨hkey, htext⟩⟩) rfl
  · rintro ⟨before, node, after, rfl, hname, htext, hafter⟩
    have hquantity : quantity? node = some (key, value) :=
      quantity?_eq_some_iff.2 ⟨hname, htext⟩
    refine ⟨before.filterMap quantity?, after.filterMap quantity?, ?_, fun entry hentry hkey => ?_⟩
    · rw [List.filterMap_append, List.filterMap_cons_some hquantity]
    · obtain ⟨later, hlater, hentry⟩ := List.mem_filterMap.1 hentry
      obtain ⟨hlaterName, hlaterText⟩ := quantity?_eq_some_iff.1 hentry
      rw [hafter later hlater (hlaterName.trans hkey)] at hlaterText
      cases hlaterText

/-- The resources of a block: all nodes for limits, and all nodes for requests. -/
structure ResourcesOf (block : List Node) (resources : Resources) : Prop where
  limits : HoldsQuantities "limits" block resources.limits
  requests : HoldsQuantities "requests" block resources.requests

theorem HoldsQuantities.unique {name : String} {block : List Node} {t u : Table String}
    (ht : HoldsQuantities name block t) (hu : HoldsQuantities name block u) : t = u :=
  Table.ext_find? fun key => Option.ext fun value => (ht key value).trans (hu key value).symm

/-! ### Hooks -/

/-- The nodes that say what runs at a moment, in all blocks for the moment. -/
def actionNodes (moment : HookMoment) (block : List Node) : List Node :=
  ((block.filter fun node => HookMoment.ofName? node.name = some moment).flatMap
    Node.childNodes).filter (·.name ∈ ["exec", "http-get", "http_get"])

/-- What hooks run at a moment. -/
def hookAt (hooks : Lifecycle) : HookMoment → Option HookAction
  | .postStart => hooks.postStart
  | .preStop => hooks.preStop

/-- The hooks of a block: at each moment what the last node that says so is read as. -/
def HooksOf (block : List Node) (hooks : Lifecycle) : Prop :=
  ∀ moment, (hookAt hooks moment).map (fun action => .ok (some action))
    = (actionNodes moment block).getLast?.map readHookAction

theorem flatMap_filter_eq_flatten {α β : Type} (p : α → Bool) (f : α → List β) (l : List α) :
    (l.filter p).flatMap f = (l.map fun a => if p a then f a else []).flatten := by
  induction l with
  | nil => rfl
  | cons a rest ih => by_cases h : p a <;> simp [h, ih]

/-- Below a moment only a node with one of three names is an action. -/
theorem action_of_readHookAction {action : Option HookAction}
    (h : readHookAction node = .ok action) :
    action.bind (fun action => some (.ok (some action)))
      = if node.name ∈ ["exec", "http-get", "http_get"] then some (readHookAction node)
        else none := by
  rw [h]
  unfold readHookAction at h
  split at h
  case h_1 hname =>
    cases h
    simp [hname]
  case h_4 hexec hget hget' =>
    cases h
    rw [if_neg (by simpa using ⟨hexec, hget, hget'⟩)]
    rfl
  all_goals
    next hname =>
      split at h
      · cases h
      · obtain ⟨port, -, h⟩ := bind_eq_ok_iff.1 h
        cases h
        simp [hname]

/-- A hook for a moment, as it is read. -/
def hookFor? (moment : HookMoment) (hook : HookMoment × HookAction) :
    Option (Read (Option HookAction)) :=
  if hook.1 = moment then some (.ok (some hook.2)) else none

theorem hooks_of_readHooks {hooks : List (HookMoment × HookAction)} (moment : HookMoment)
    (h : readHooks node = .ok hooks) :
    hooks.filterMap (hookFor? moment) = if HookMoment.ofName? node.name = some moment then
      (node.childNodes.filter (·.name ∈ ["exec", "http-get", "http_get"])).map readHookAction
      else [] := by
  unfold readHooks at h
  split at h
  · next hname =>
    cases h
    simp [hname]
  · next named hname =>
    obtain ⟨actions, hread, rfl⟩ := map_eq_ok_iff.1 h
    rw [hname, List.filterMap_map]
    by_cases hmoment : named = moment
    · subst hmoment
      have hactions := filterMap_eq_of_mapM hread fun _ _ => action_of_readHookAction
      rw [if_pos rfl, ← List.filterMap_eq_map, List.filterMap_filter]
      simpa [hookFor?, Function.comp_def] using hactions
    · simp [hookFor?, Function.comp_def, hmoment]

theorem hooksOf_of_readLifecycle {block : List Node} {hooks : Lifecycle}
    (h : readLifecycle block = .ok hooks) : HooksOf block hooks := by
  obtain ⟨listed, hread, h⟩ := bind_eq_ok_iff.1 h
  have hlast (moment : HookMoment) :
      hookAt hooks moment = (listed.flatten.findRev? (·.1 = moment)).map (·.2) := by
    cases h
    cases moment <;> rfl
  intro moment
  have hnodes : listed.flatten.filterMap (hookFor? moment)
      = (actionNodes moment block).map readHookAction := by
    rw [List.filterMap_flatten, map_eq_of_mapM hread fun _ _ => hooks_of_readHooks moment,
      actionNodes, List.filter_flatMap, List.map_flatMap, flatMap_filter_eq_flatten]
    simp only [decide_eq_true_eq]
  have hhooks : listed.flatten.filterMap (hookFor? moment)
      = (listed.flatten.filter (·.1 = moment)).map fun hook => .ok (some hook.2) := by
    rw [← List.filterMap_eq_map, List.filterMap_filter]
    simp only [decide_eq_true_eq]
    rfl
  calc (hookAt hooks moment).map (fun action => .ok (some action))
      = ((listed.flatten.filter (·.1 = moment)).map fun hook => .ok (some hook.2)).getLast? := by
        rw [hlast, findRev?_eq_getLast?_filter, Option.map_map, List.getLast?_map]
        rfl
    _ = ((actionNodes moment block).map readHookAction).getLast? := by rw [← hhooks, hnodes]
    _ = (actionNodes moment block).getLast?.map readHookAction := List.getLast?_map

theorem HooksOf.unique {block : List Node} {hooks hooks' : Lifecycle} (h : HooksOf block hooks)
    (h' : HooksOf block hooks') : hooks = hooks' := by
  have hat (moment : HookMoment) : hookAt hooks moment = hookAt hooks' moment :=
    Option.map_injective (fun _ _ heq => Option.some.inj (Except.ok.inj heq))
      ((h moment).trans (h' moment).symm)
  obtain ⟨postStart, preStop⟩ := hooks
  obtain ⟨postStart', preStop'⟩ := hooks'
  exact congrArg₂ Lifecycle.mk (hat .postStart) (hat .preStop)

/-! ### Conditions -/

/-- What a condition is read as. One that compares with a set of values has at least one. -/
theorem readExpression_eq_ok_iff {e : SelectorExpression} : readExpression node = .ok e ↔
    node.propertyText? "key" = some e.key ∧
    SelectorOperator.ofName? ((node.propertyText? "operator").getD SelectorOperator.isIn.name)
      = some e.operator ∧
    e.values = node.argumentTexts ++
      (node.childNodes.filter (·.name = "values")).flatMap (·.argumentTexts) ∧
    (e.operator.needsValues → e.values ≠ []) := by
  obtain ⟨key, operator, values⟩ := e
  simp only [readExpression]
  cases node.propertyText? "key" with
  | none => simp
  | some key' =>
    cases SelectorOperator.ofName?
        ((node.propertyText? "operator").getD SelectorOperator.isIn.name) with
    | none => simp
    | some operator' =>
      generalize node.argumentTexts ++
        (node.childNodes.filter (·.name = "values")).flatMap (·.argumentTexts) = values'
      simp only [Option.some.injEq]
      split
      · next hempty =>
        simp only [Bool.and_eq_true, List.isEmpty_iff] at hempty
        refine iff_of_false nofun ?_
        rintro ⟨-, rfl, rfl, hvalues⟩
        exact hvalues hempty.2 hempty.1
      · next hempty =>
        simp only [Bool.and_eq_true, List.isEmpty_iff, not_and'] at hempty
        constructor
        · intro h
          cases h
          exact ⟨rfl, rfl, rfl, hempty⟩
        · rintro ⟨rfl, rfl, rfl, -⟩
          rfl

theorem values_of_readTerms {block : List Node} {terms : List SelectorTerm}
    (h : readTerms block = .ok terms) : ∀ term ∈ terms, ∀ e ∈ term.expressions,
      e.operator = .isIn ∨ e.operator = .notIn → e.values ≠ [] := by
  intro term hterm e he hneeds
  obtain ⟨termNode, -, hread⟩ := exists_of_mem_mapM h hterm
  obtain ⟨expressions, hexpressions, rfl⟩ := map_eq_ok_iff.1 hread
  obtain ⟨expressionNode, -, hexpression⟩ := exists_of_mem_mapM hexpressions he
  obtain ⟨-, -, -, hvalues⟩ := readExpression_eq_ok_iff.1 hexpression
  refine hvalues ?_
  rcases hneeds with hneeds | hneeds <;> rw [hneeds] <;> rfl

end Config

open Kdl (Node Value)
open Config

/-! ### Processes -/

/-- The process that a node describes, field by field. What several nodes set is set by the last of
them, and what they add to has what all of them add. -/
structure ProcessSpec.SetBy (node : Node) (spec : ProcessSpec) : Prop where
  name : node.argumentText? = some spec.name
  command : spec.command
    = ((settingNodes .command node.childNodes).getLast?.map Node.argumentTexts).getD []
  units : spec.units.map (fun count => Value.int count.toNat)
    = ((settingNodes .units node.childNodes).filterMap Node.argument?).getLast?
  routable : spec.routable = ((settingNodes .routable node.childNodes).getLast?.map fun node =>
    (node.argument?.bind Value.bool?).getD true).getD ((node.propertyBool? "routable").getD false)
  environment : ∃ parts,
    List.Forall₂ Contributes (settingNodes .environment node.childNodes) parts ∧
      spec.environment = parts.flatten
  securityContext : spec.securityContext.map .ok
    = (settingNodes .securityContext node.childNodes).getLast?.map readSecurityContext
  resources : Option.Rel ResourcesOf (settingBlocks .resources node.childNodes).getLast?
    spec.resources
  nodeSelector : .ok spec.nodeSelector
    = ((settingBlocks .nodeSelector node.childNodes).getLast?.map readTerms).getD (.ok [])
  lifecycle : Option.Rel HooksOf (settingBlocks .lifecycle node.childNodes).getLast? spec.lifecycle
  volumes : spec.volumes.map .ok = (settingNodes .volume node.childNodes).map readVolume
  volumeMounts : spec.volumeMounts.map .ok
    = (settingNodes .volumeMount node.childNodes).map readVolumeMount

namespace Config

variable {node : Node} {spec : ProcessSpec}

theorem setBy_of_readProcess (h : readProcess node = .ok spec) : spec.SetBy node where
  name := name_of_readProcess h
  command := command_of_readProcess h
  units := units_eq_of_readProcess h
  routable := routable_of_readProcess h
  environment := by
    refine ⟨(settingNodes .environment node.childNodes).map readEnvironment, ?_, ?_⟩
    · exact List.forall₂_map_right_iff.2
        (List.forall₂_same.2 fun node _ => contributes_readEnvironment node)
    · rw [environment_of_readProcess h, List.flatMap_def]
  securityContext := securityContext_of_readProcess h
  resources := by
    rw [resources_of_readProcess h]
    exact rel_map (fun block =>
      ⟨holdsQuantities "limits" block, holdsQuantities "requests" block⟩) _
  nodeSelector := (nodeSelector_of_readProcess h).symm
  lifecycle := rel_of_map_eq (lifecycle_of_readProcess h) fun _ _ hread =>
    hooksOf_of_readLifecycle hread.symm
  volumes := volumes_of_readProcess h
  volumeMounts := volumeMounts_of_readProcess h

theorem Contributes.parts_eq {nodes : List Node} {parts : List (List EnvVar)}
    (h : List.Forall₂ Contributes nodes parts) : parts = nodes.map readEnvironment := by
  induction h with
  | nil => rfl
  | cons hfirst _ ih => rw [hfirst.eq_readEnvironment, ih, List.map_cons]

end Config

/-- A node describes one process. -/
theorem ProcessSpec.SetBy.unique {node : Node} {spec spec' : ProcessSpec} (h : spec.SetBy node)
    (h' : spec'.SetBy node) : spec = spec' := by
  have hunits : spec.units = spec'.units := by
    refine Option.map_injective (fun m n heq => ?_) (h.units.trans h'.units.symm)
    exact UInt32.toNat_inj.1 (Int.ofNat.inj (Value.int.inj heq))
  have henvironment : spec.environment = spec'.environment := by
    obtain ⟨parts, hparts, heq⟩ := h.environment
    obtain ⟨parts', hparts', heq'⟩ := h'.environment
    rw [heq, heq', Contributes.parts_eq hparts, Contributes.parts_eq hparts']
  have hresources : spec.resources = spec'.resources :=
    rel_unique (fun _ r r' hr hr' => congrArg₂ Resources.mk (hr.limits.unique hr'.limits)
      (hr.requests.unique hr'.requests)) h.resources h'.resources
  have hlifecycle : spec.lifecycle = spec'.lifecycle := by
    refine rel_unique ?_ h.lifecycle h'.lifecycle
    exact fun _ _ _ hhooks hhooks' => hhooks.unique hhooks'
  have hok {α : Type} : Function.Injective (Except.ok : α → Read α) := fun _ _ => Except.ok.inj
  cases spec
  cases spec'
  rw [ProcessSpec.mk.injEq]
  exact ⟨Option.some.inj (h.name.symm.trans h'.name), h.routable.trans h'.routable.symm,
    h.command.trans h'.command.symm, hunits, henvironment,
    Option.map_injective hok (h.securityContext.trans h'.securityContext.symm), hresources,
    hok (h.nodeSelector.trans h'.nodeSelector.symm), hlifecycle,
    List.map_injective_iff.2 hok (h.volumes.trans h'.volumes.symm),
    List.map_injective_iff.2 hok (h.volumeMounts.trans h'.volumeMounts.symm)⟩

namespace Config

variable {node : Node} {spec : ProcessSpec} {block : List Node}

/-- Two blocks have the same settings of each kind in the same order, however those of different
kinds alternate, and whatever nodes there are that set nothing. -/
def SameSettings (block block' : List Node) : Prop :=
  ∀ kind, settingNodes kind block = settingNodes kind block'

/-- Where each setting of a block can be read, so can each of a block with the same settings. -/
theorem SameSettings.readable {process : String} {before : List Node}
    (hsame : SameSettings before block)
    (h : ∀ child ∈ before, ∃ setting, readProcessSetting process child = .ok setting) :
    ∀ child ∈ block, ∃ setting, readProcessSetting process child = .ok setting := by
  intro child hchild
  cases hkind : SettingKind.ofName? child.name with
  | none => exact ⟨none, by rw [readProcessSetting_eq, hkind]⟩
  | some kind =>
    have hmem : child ∈ settingNodes kind before := by
      rw [hsame kind]
      exact List.mem_filter.2 ⟨hchild, by simpa using hkind⟩
    exact h child (List.mem_filter.1 hmem).1

/-- With the same settings in its block, a node describes the same process. -/
theorem SameSettings.setBy (hsame : SameSettings node.childNodes block)
    (h : spec.SetBy { node with children := some block }) : spec.SetBy node := by
  have hnodes (kind : SettingKind) : settingNodes kind node.childNodes
      = settingNodes kind (Node.childNodes { node with children := some block }) := hsame kind
  have hblocks (kind : SettingKind) : settingBlocks kind node.childNodes
      = settingBlocks kind (Node.childNodes { node with children := some block }) :=
    congrArg (·.filterMap Node.children) (hsame kind)
  obtain ⟨hname, hcommand, hunits, hroutable, henvironment, hsecurityContext, hresources,
    hnodeSelector, hlifecycle, hvolumes, hvolumeMounts⟩ := h
  simp only [← hnodes, ← hblocks] at *
  exact ⟨hname, hcommand, hunits, hroutable, henvironment, hsecurityContext, hresources,
    hnodeSelector, hlifecycle, hvolumes, hvolumeMounts⟩

/-- **What a process node is read as.** A process that can be read is the one that its node
describes, and the only one. It has positive units if any, each of its conditions that compares with
a set of values has one, and any block with the same settings of each kind, in the same order, makes
the same process. -/
theorem readProcess_setBy (h : readProcess node = .ok spec) :
    spec.SetBy node ∧ (∀ other : ProcessSpec, other.SetBy node → other = spec) ∧
    spec.units ≠ some 0 ∧
    (∀ term ∈ spec.nodeSelector, ∀ e ∈ term.expressions,
      e.operator = .isIn ∨ e.operator = .notIn → e.values ≠ []) ∧
    ∀ block, SameSettings node.childNodes block →
      readProcess { node with children := some block } = .ok spec := by
  have hspec := setBy_of_readProcess h
  refine ⟨hspec, fun other hother => hother.unique hspec, units_of_readProcess h, ?_, ?_⟩
  · cases hlast : (settingBlocks .nodeSelector node.childNodes).getLast? with
    | none =>
      have hterms := hspec.nodeSelector
      rw [hlast] at hterms
      rw [Except.ok.inj hterms]
      nofun
    | some block =>
      have hterms := hspec.nodeSelector
      rw [hlast] at hterms
      exact values_of_readTerms hterms.symm
  · intro block hsame
    obtain ⟨settings, hname, hread, -⟩ := exists_settings h
    obtain ⟨settings', hread'⟩ := exists_mapM_eq_ok_iff.2
      (hsame.readable (exists_mapM_eq_ok_iff.1 ⟨settings, hread⟩))
    obtain ⟨spec', h'⟩ : ∃ spec', readProcess { node with children := some block } = .ok spec' :=
      ⟨_, readProcess_eq_ok_iff.2 ⟨spec.name, settings', hname, hread', rfl⟩⟩
    rw [h', (hsame.setBy (setBy_of_readProcess h')).unique hspec]

/-- A process node that says most things twice, the second time not always in full. -/
def wordy : Node where
  name := "process"
  entries := [⟨none, .text "web"⟩, ⟨some "routable", .bool true⟩]
  children := some
    [⟨"cmd", [⟨none, .text "sleep"⟩], none⟩, ⟨"units", [⟨none, .int 3⟩], none⟩,
      ⟨"env", [⟨none, .text "A = 1=2"⟩], none⟩,
      ⟨"resources", [], some
        [⟨"limits", [], some [⟨"cpu", [⟨none, .int 1⟩], none⟩]⟩,
          ⟨"limits", [], some [⟨"cpu", [⟨none, .text "2"⟩], none⟩, ⟨"cpu", [], none⟩]⟩]⟩,
      ⟨"routable", [⟨none, .bool false⟩], none⟩, ⟨"note", [], none⟩,
      ⟨"lifecycle", [], some
        [⟨"pre-stop", [], some [⟨"exec", [⟨none, .text "true"⟩], none⟩]⟩,
          ⟨"pre_stop", [], some [⟨"http-get", [⟨some "port", .int 80⟩], none⟩]⟩]⟩,
      ⟨"command", [⟨none, .text "puma"⟩, ⟨none, .text "-v"⟩], none⟩, ⟨"instances", [], none⟩,
      ⟨"environment", [], some [⟨"B", [⟨none, .bool true⟩], none⟩]⟩, ⟨"resources", [], none⟩]

/-- The same settings, kind by kind. -/
def wordySorted : List Node :=
  [⟨"cmd", [⟨none, .text "sleep"⟩], none⟩,
    ⟨"command", [⟨none, .text "puma"⟩, ⟨none, .text "-v"⟩], none⟩,
    ⟨"units", [⟨none, .int 3⟩], none⟩, ⟨"instances", [], none⟩,
    ⟨"routable", [⟨none, .bool false⟩], none⟩, ⟨"env", [⟨none, .text "A = 1=2"⟩], none⟩,
    ⟨"environment", [], some [⟨"B", [⟨none, .bool true⟩], none⟩]⟩,
    ⟨"resources", [], some
      [⟨"limits", [], some [⟨"cpu", [⟨none, .int 1⟩], none⟩]⟩,
        ⟨"limits", [], some [⟨"cpu", [⟨none, .text "2"⟩], none⟩, ⟨"cpu", [], none⟩]⟩]⟩,
    ⟨"resources", [], none⟩,
    ⟨"lifecycle", [], some
      [⟨"pre-stop", [], some [⟨"exec", [⟨none, .text "true"⟩], none⟩]⟩,
        ⟨"pre_stop", [], some [⟨"http-get", [⟨some "port", .int 80⟩], none⟩]⟩]⟩]

/-- The process of that node. -/
def wordySpec : ProcessSpec :=
  { ProcessSpec.blank "web" false with
    command := ["puma", "-v"]
    units := some 3
    environment := [⟨"A", "1=2"⟩, ⟨"B", "true"⟩]
    resources := some ⟨.ofList [("cpu", "2")], ∅⟩
    lifecycle := some ⟨none, some (.httpGet "/" 80)⟩ }

/-- Both are read as that process. -/
theorem readProcess_wordy : readProcess wordy = .ok wordySpec ∧ wordySpec.SetBy wordy ∧
    wordySpec.units ≠ some 0 ∧
    readProcess { wordy with children := some wordySorted } = .ok wordySpec := by
  have hread : readProcess wordy = .ok wordySpec := by decide +kernel
  obtain ⟨hspec, -, hunits, -, hsorted⟩ := readProcess_setBy hread
  exact ⟨hread, hspec, hunits, hsorted wordySorted fun kind => by cases kind <;> rfl⟩

end Config

end ProcessPlan
