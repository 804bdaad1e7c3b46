import ProcessPlan.Proofs.Config.NormalForm

/-!
# Unknown nodes and other spellings

Nothing in a configuration depends on which spelling of a name is used, nor on nodes whose names
mean nothing where they stand. This is shown level by level, from the inside to the outside: what is
read of a block is what is read of its normal form, with the same fault if there is one. Only the
probes have a fault that quotes the name of a node; all other faults are the same under every
spelling.

## Main results

* `Config.respects_readProcessSetting`, `Config.respects_readProbeSetting`,
  `Config.respects_readSection`: a setting of a process, a setting of a probe, and a section
* `Config.foldlM_addNode_normal`: a whole document
* `App.ofDocument_normalBlock`: a document and its normal form declare the same application
-/

namespace ProcessPlan

namespace Config

open Kdl (Node Document Value)

/-! ### Scalars -/

@[simp] theorem mapError_optional {α β : Type} (read : α → Read β) (value : Option α)
    (f : ConfigFault → ConfigFault) :
    (optional read value).mapError f = optional (fun a => (read a).mapError f) value := by
  cases value with
  | none => rfl
  | some a => exact mapError_map _ _ _

@[simp] theorem respelled_readNumber {α : Type} (range : NumberRange) (ofInt? : Int → Option α)
    (field : String) (value : Value) :
    (readNumber range ofInt? field value).mapError respelled
      = readNumber range ofInt? field value := by
  unfold readNumber
  split <;> rfl

@[simp] theorem respelled_readPort (field : String) (value : Value) :
    (readPort field value).mapError respelled = readPort field value :=
  respelled_readNumber ..

@[simp] theorem respelled_readCount (field : String) (value : Value) :
    (readCount field value).mapError respelled = readCount field value :=
  respelled_readNumber ..

@[simp] theorem respelled_readSigned (field : String) (value : Value) :
    (readSigned field value).mapError respelled = readSigned field value :=
  respelled_readNumber ..

@[simp] theorem respelled_readName (kind : String) (node : Node) :
    (readName kind node).mapError respelled = readName kind node := by
  unfold readName
  split <;> rfl

/-! ### Nodes without a block to normalise -/

@[simp] theorem respelled_readHookAction (node : Node) :
    (readHookAction node).mapError respelled = readHookAction node := by
  unfold readHookAction
  split
  · rfl
  · split <;> simp [respelled]
  · split <;> simp [respelled]
  · rfl

@[simp] theorem respelled_readUnits (process : String) (value : Value) :
    (readUnits process value).mapError respelled = readUnits process value := by
  simp only [readUnits, mapError_bind, respelled_readCount]
  congr
  funext count
  split <;> rfl

@[simp] theorem respelled_readSecurityContext (node : Node) :
    (readSecurityContext node).mapError respelled = readSecurityContext node := by
  simp [readSecurityContext]

@[simp] theorem respelled_readVolume (node : Node) :
    (readVolume node).mapError respelled = readVolume node := by
  simp [readVolume]

@[simp] theorem respelled_readVolumeMount (node : Node) :
    (readVolumeMount node).mapError respelled = readVolumeMount node := by
  simp only [readVolumeMount, mapError_bind, respelled_readName]
  congr
  funext name
  split <;> rfl

@[simp] theorem respelled_readExpression (node : Node) :
    (readExpression node).mapError respelled = readExpression node := by
  unfold readExpression
  split
  · rfl
  · dsimp only
    split
    · rfl
    · split <;> rfl

@[simp] theorem respelled_readTarget (node : Node) :
    (readTarget node).mapError respelled = readTarget node := by
  unfold readTarget
  split
  · rfl
  · split <;> rfl

@[simp] theorem respelled_readItem (node : Node) :
    (readItem node).mapError respelled = readItem node := by
  simp [readItem]

@[simp] theorem respelled_readProtocol (node : Node) :
    (readProtocol node).mapError respelled = readProtocol node := by
  unfold readProtocol
  split
  · rfl
  · split <;> rfl

@[simp] theorem respelled_readPortDeclaration (node : Node) :
    (readPortDeclaration node).mapError respelled = readPortDeclaration node := by
  unfold readPortDeclaration
  dsimp only
  split <;> simp [respelled]

/-! ### Placement -/

theorem readExpression_normal (node : Node) :
    readExpression (withBlock (normalBlock expressionWords) node)
      = (readExpression node).mapError respelled := by
  have hvalues : ((withBlock (normalBlock expressionWords) node).childNodes.filter
      (·.name = "values")) = node.childNodes.filter (·.name = "values") := by
    rw [childNodes_withBlock, expressionWords, filter_normalBlock (by simp)]
    simp
  rw [respelled_readExpression, readExpression, hvalues]
  rfl

theorem readTerm_normal (node : Node) :
    readTerm (withBlock (normalBlock termWords) node) = (readTerm node).mapError respelled := by
  rw [readTerm, readTerm, childNodes_withBlock, termWords,
    mapM_filter_normalBlock (by simp) readExpression_normal, mapError_map]

theorem readTerms_normal (block : List Node) :
    readTerms (normalBlock selectorWords block) = (readTerms block).mapError respelled :=
  mapM_filter_normalBlock (by simp) readTerm_normal block

theorem resourcesOfBlock_normal (block : List Node) :
    resourcesOfBlock (normalBlock resourceWords block) = resourcesOfBlock block := by
  have hpick (name : String) (hname : name ∈ ["limits", "requests"]) :
      (normalBlock resourceWords block).filter (·.name = name)
        = block.filter (·.name = name) := by
    rw [resourceWords, normalBlock_plainWords, withBlock_id, List.map_id, List.filter_filter]
    refine List.filter_congr fun node _ => ?_
    by_cases h : node.name = name
    · simp only [h, hname, decide_true, Bool.and_self]
    · simp [h]
  rw [resourcesOfBlock, quantities, quantities, hpick "limits" (by simp),
    hpick "requests" (by simp)]
  rfl

/-! ### Hooks -/

theorem respects_readHookAction : Respects hookWords readHookAction none := by
  refine respects_of_words ?_ ?_ fun node hunknown => ?_
  · simp only [hookWords, List.forall_mem_cons, List.not_mem_nil, false_implies, implies_true,
      and_true, true_and]
    exact fun _ _ => rfl
  · simp [hookWords]
  · simp [hookWords, Word.spellings] at hunknown
    simp [readHookAction, hunknown]

/-- The actions of a node are those of its block. -/
theorem readHooks_eq (node : Node) {moment : HookMoment}
    (h : HookMoment.ofName? node.name = some moment) :
    readHooks node = (node.childNodes.mapM readHookAction).map
      fun actions => (actions.filterMap id).map (moment, ·) := by
  rw [readHooks, h]

theorem readHooks_withBlock {node : Node} {moment : HookMoment}
    (h : HookMoment.ofName? node.name = some moment) :
    readHooks (withBlock (normalBlock hookWords) node)
      = (readHooks node).mapError respelled := by
  rw [readHooks_eq node h, readHooks_eq (withBlock (normalBlock hookWords) node) h,
    childNodes_withBlock]
  exact respects_readHookAction.map_mapM _ (by simp) _

theorem respects_readHooks : Respects lifecycleWords readHooks [] := by
  refine respects_of_words ?_ ?_ fun node hunknown => ?_
  · simp only [lifecycleWords, List.forall_mem_cons, List.not_mem_nil, false_implies,
      implies_true, and_true]
    exact ⟨fun _ _ => rfl, fun _ _ => rfl⟩
  · simp only [lifecycleWords, List.forall_mem_cons, List.not_mem_nil, false_implies,
      implies_true, and_true]
    exact ⟨fun _ _ => readHooks_withBlock rfl, fun _ _ => readHooks_withBlock rfl⟩
  · simp [lifecycleWords, Word.spellings] at hunknown
    simp [readHooks, HookMoment.ofName?, hunknown]

theorem readLifecycle_normal (block : List Node) :
    readLifecycle (normalBlock lifecycleWords block)
      = (readLifecycle block).mapError respelled := by
  let last (moment : HookMoment) (hooks : List (List (HookMoment × HookAction))) :=
    (hooks.flatten.findRev? (·.1 = moment)).map (·.2)
  have hread (block : List Node) : readLifecycle block = (block.mapM readHooks).map
      fun hooks => ⟨last .postStart hooks, last .preStop hooks⟩ := by
    rw [readLifecycle]
    cases block.mapM readHooks <;> rfl
  rw [hread, hread]
  exact respects_readHooks.map_mapM _ (by simp [last]) block

/-! ### Processes -/

theorem readBlock_withBlock {α : Type} {read : List Node → Read α} {setting : α → ProcessSetting}
    {words : List Word}
    (hread : ∀ block, read (normalBlock words block) = (read block).mapError respelled)
    (node : Node) : readBlock (withBlock (normalBlock words) node) read setting
      = (readBlock node read setting).mapError respelled := by
  obtain ⟨name, entries, _ | block⟩ := node
  · rfl
  · simp [readBlock, withBlock, optional, hread]

theorem respects_readProcessSetting (process : String) :
    Respects processWords (readProcessSetting process) none := by
  refine respects_of_words ?_ ?_ fun node hunknown => ?_
  · simp only [processWords, List.forall_mem_cons, List.not_mem_nil, false_implies, implies_true,
      and_true, true_and]
    and_intros <;> exact fun _ _ => rfl
  · simp only [processWords, List.forall_mem_cons, List.not_mem_nil, false_implies, implies_true,
      and_true]
    refine ⟨?command, ?units, ?routable, ?env, ?securityContext, ?resources, ?nodeSelector,
      ?volume, ?volumeMount, ?lifecycle⟩ <;> intro entries children
    case resources =>
      exact readBlock_withBlock (by simp [resourcesOfBlock_normal])
        ⟨"resources", entries, children⟩
    case nodeSelector =>
      exact readBlock_withBlock readTerms_normal ⟨"node-selector", entries, children⟩
    case lifecycle =>
      exact readBlock_withBlock readLifecycle_normal ⟨"lifecycle", entries, children⟩
    all_goals simp [readProcessSetting]
  · simp [processWords, Word.spellings] at hunknown
    simp [readProcessSetting, hunknown]

/-- What a process is read as is collected from its settings. -/
theorem readProcess_eq (node : Node) : readProcess node = readName "process" node >>= fun name =>
    (node.childNodes.mapM (readProcessSetting name)).map fun settings =>
      (settings.filterMap id).foldl ProcessSetting.apply
        (.blank name ((node.propertyBool? "routable").getD false)) := by
  rw [readProcess]
  refine bind_congr fun name => ?_
  cases node.childNodes.mapM (readProcessSetting name) <;> rfl

theorem readProcess_normal (node : Node) :
    readProcess (withBlock (normalBlock processWords) node)
      = (readProcess node).mapError respelled := by
  rw [readProcess_eq, readProcess_eq, mapError_bind, respelled_readName, childNodes_withBlock]
  refine bind_congr fun name => ?_
  exact (respects_readProcessSetting name).map_mapM _ (by simp) _

/-! ### Ports -/

theorem readPortsOfProcess_normal (node : Node) :
    readPortsOfProcess (withBlock (normalBlock portWords) node)
      = (readPortsOfProcess node).mapError respelled := by
  simp only [readPortsOfProcess, mapError_bind, respelled_readName, childNodes_withBlock, portWords]
  refine bind_congr fun name => ?_
  rw [mapM_filter_normalBlock (by simp) (by simp)]
  rfl

theorem readProcessPorts_normal (node : Node) :
    readProcessPorts (withBlock (normalBlock portsWords) node)
      = (readProcessPorts node).mapError respelled := by
  rw [readProcessPorts, childNodes_withBlock]
  exact mapM_filter_normalBlock (by simp) readPortsOfProcess_normal _

@[simp] theorem respelled_readExposedPorts (node : Node) :
    (readExposedPorts node).mapError respelled = readExposedPorts node := by
  simp [readExposedPorts]

/-! ### Probes -/

@[simp] theorem respelled_readActionPort (field : String) (node : Node) :
    (readActionPort field node).mapError respelled = readActionPort field node := by
  simp [readActionPort]

/-- The count of a node. A fault that there is none quotes the first spelling. -/
theorem respelled_readProbeSetting_of_count (kind : String) (node : Node) {field : ProbeCount}
    (h : ProbeCount.ofName? node.name = some field) :
    (readProbeSetting kind node).mapError respelled = match node.argument? with
      | none => .error (.missingSetting kind field.name)
      | some value => (readCount field.name value).map fun n => some (.count field n) := by
  have haction : readProbeAction? node = none := by
    unfold ProbeCount.ofName? at h
    split at h <;> simp_all [readProbeAction?]
  have hfirst : ((wordOf? probeWords node.name).map (·.first)).getD node.name = field.name := by
    unfold ProbeCount.ofName? at h
    split at h
    case h_9 => cases h
    all_goals
      next hname =>
        cases h
        rw [hname]
        decide
  rw [readProbeSetting, haction]
  simp only [h]
  cases node.argument? with
  | none => exact congrArg (fun name => Except.error (ConfigFault.missingSetting kind name)) hfirst
  | some value => simp

/-- A count in its first spelling is read as it is. -/
theorem readProbeSetting_of_count (kind : String) {node : Node} (field : ProbeCount)
    (hname : node.name = field.name) :
    readProbeSetting kind node = (readProbeSetting kind node).mapError respelled := by
  have hfield : ProbeCount.ofName? field.name = some field := by cases field <;> rfl
  have haction : readProbeAction? node = none := by
    rw [readProbeAction?, hname]
    cases field <;> rfl
  rw [respelled_readProbeSetting_of_count kind node (hname ▸ hfield)]
  cases hargument : node.argument? <;>
    simp [readProbeSetting, haction, hname, hfield, hargument]

theorem respects_readProbeSetting (kind : String) :
    Respects probeWords (readProbeSetting kind) none := by
  have hcount {name name' : String} {field : ProbeCount} {entries : List Kdl.Entry}
      {children : Option (List Node)} (h : ProbeCount.ofName? name = some field)
      (h' : ProbeCount.ofName? name' = some field) :
      (readProbeSetting kind ⟨name, entries, children⟩).mapError respelled
        = (readProbeSetting kind ⟨name', entries, children⟩).mapError respelled := by
    rw [respelled_readProbeSetting_of_count kind ⟨name, entries, children⟩ h,
      respelled_readProbeSetting_of_count kind ⟨name', entries, children⟩ h']
    rfl
  refine respects_of_words ?_ ?_ fun node hunknown => ?_
  · simp only [probeWords, List.forall_mem_cons, List.not_mem_nil, false_implies, implies_true,
      and_true, true_and]
    exact ⟨fun _ _ => rfl, fun _ _ => rfl, fun _ _ => hcount rfl rfl, fun _ _ => hcount rfl rfl,
      fun _ _ => hcount rfl rfl⟩
  · simp only [probeWords, List.forall_mem_cons, List.not_mem_nil, false_implies, implies_true,
      and_true, withBlock_id, id_eq]
    refine ⟨?httpGet, ?tcpSocket, ?exec, ?initialDelay, ?period, ?timeout, ?successThreshold,
      ?failureThreshold⟩ <;> intro entries children
    case initialDelay => exact readProbeSetting_of_count kind .initialDelay rfl
    case period => exact readProbeSetting_of_count kind .period rfl
    case timeout => exact readProbeSetting_of_count kind .timeout rfl
    case successThreshold => exact readProbeSetting_of_count kind .successThreshold rfl
    case failureThreshold => exact readProbeSetting_of_count kind .failureThreshold rfl
    all_goals simp [readProbeSetting, readProbeAction?]
  · simp [probeWords, Word.spellings] at hunknown
    simp [readProbeSetting, readProbeAction?, ProbeCount.ofName?, hunknown]

/-- The probe that settings make up. -/
def probeOf (kind : String) (settings : List ProbeSetting) : Read Probe :=
  match lastAction settings with
  | none => .error (.missingAction kind)
  | some action =>
    .ok {
      action
      initialDelay := lastCount .initialDelay settings
      period := lastCount .period settings
      timeout := lastCount .timeout settings
      successThreshold := lastCount .successThreshold settings
      failureThreshold := lastCount .failureThreshold settings }

theorem readProbe_eq (kind : String) (block : List Node) : readProbe kind block
    = (block.mapM (readProbeSetting kind)).map (·.filterMap id) >>= probeOf kind := by
  rw [readProbe]
  cases block.mapM (readProbeSetting kind) <;> rfl

theorem readProbe_normal (kind : String) (block : List Node) :
    readProbe kind (normalBlock probeWords block) = (readProbe kind block).mapError respelled := by
  rw [readProbe_eq, readProbe_eq, mapError_bind,
    (respects_readProbeSetting kind).map_mapM (·.filterMap id) (by simp)]
  refine bind_congr fun settings => ?_
  unfold probeOf
  split <;> rfl

theorem readNamedProbe_normal (node : Node) :
    readNamedProbe (withBlock (normalBlock probeWords) node)
      = (readNamedProbe node).mapError respelled := by
  obtain ⟨name, entries, _ | block⟩ := node
  · rfl
  · simp [readNamedProbe, withBlock, readProbe_normal]

theorem readProbes_normal (node : Node) :
    readProbes (withBlock (normalBlock healthcheckWords) node)
      = (readProbes node).mapError respelled := by
  simp only [readProbes, mapError_bind, childNodes_withBlock, healthcheckWords]
  rw [mapM_filter_normalBlock (by simp [probeKinds]) readNamedProbe_normal]
  rfl

/-! ### Sections -/

theorem readItems_normal (node : Node) :
    readItems (withBlock (normalBlock itemWords) node) = (readItems node).mapError respelled := by
  rw [readItems, childNodes_withBlock]
  exact mapM_filter_normalBlock (by simp) (by simp) _

@[simp] theorem respelled_readApp (node : Node) :
    (readApp node).mapError respelled = readApp node := by
  simp [readApp]

theorem respects_readSection : Respects sectionWords readSection .unknown := by
  have hmap {α : Type} {read : Node → Read α} {make : α → Section} {node node' : Node}
      (h : read node' = (read node).mapError respelled) :
      (read node').map make = ((read node).map make).mapError respelled := by
    rw [h, mapError_map]
  refine respects_of_words ?_ ?_ fun node hunknown => ?_
  · simp only [sectionWords, List.forall_mem_cons, List.not_mem_nil, false_implies, implies_true,
      and_true, true_and]
    exact fun _ _ => rfl
  · simp only [sectionWords, List.forall_mem_cons, List.not_mem_nil, false_implies, implies_true,
      and_true]
    refine ⟨?app, ?process, ?ports, ?exposedPorts, ?healthcheck, ?labels, ?annotations⟩ <;>
      intro entries children
    case app => exact (respelled_readApp _).symm
    case process => exact hmap (readProcess_normal ⟨"process", entries, children⟩)
    case ports => exact hmap (readProcessPorts_normal ⟨"ports", entries, children⟩)
    case exposedPorts => simp [readSection]
    case healthcheck => exact hmap (readProbes_normal ⟨"healthcheck", entries, children⟩)
    case labels => exact hmap (readItems_normal ⟨"labels", entries, children⟩)
    case annotations => exact hmap (readItems_normal ⟨"annotations", entries, children⟩)
  · simp [sectionWords, Word.spellings] at hunknown
    simp [readSection, hunknown]

/-! ### Documents -/

/-- The fault of a text with the first spelling of the setting that it quotes. -/
def respelledFault : Fault → Fault
  | .badConfig fault => .badConfig (respelled fault)
  | fault => fault

theorem respelled_addSection (app : App) (part : Section) :
    (addSection app part).mapError respelled = addSection app part := by
  cases part with
  | process spec =>
    rw [addSection]
    split <;> rfl
  | _ => rfl

theorem foldlM_addNode_normal (app : App) (document : Document) :
    (normalBlock sectionWords document).foldlM addNode app
      = (document.foldlM addNode app).mapError respelled := by
  induction document generalizing app with
  | nil => rfl
  | cons node rest ih =>
    have hnode := respects_readSection node
    rw [List.foldlM_cons, mapError_bind, addNode, mapError_bind, bind_assoc]
    cases hnormal : normalNode? sectionWords node with
    | none =>
      rw [hnormal, Option.elim_none] at hnode
      rw [normalBlock_cons_of_none hnormal, ← hnode, ih]
      rfl
    | some node' =>
      rw [hnormal, Option.elim_some] at hnode
      rw [normalBlock_cons_of_some hnormal, List.foldlM_cons, addNode, bind_assoc, hnode]
      refine bind_congr fun part => ?_
      rw [respelled_addSection]
      exact bind_congr ih

end Config

namespace App

open Config

/-- **Unknown nodes and other spellings do not matter.** The normal form of a document declares the
same application, or has the same fault, but that a setting of a probe that has no value is quoted
in its first spelling. The same holds of a text of the one and a text of the other. -/
theorem ofDocument_normalBlock (standIn : String) (document : Kdl.Document) :
    ofDocument standIn (normalBlock sectionWords document)
        = (ofDocument standIn document).mapError respelled ∧
      ∀ text text' : String, Kdl.Document.ofText? text = some document →
        Kdl.Document.ofText? text' = some (normalBlock sectionWords document) →
        ofText standIn text' = (ofText standIn text).mapError respelledFault := by
  have hnormal : ofDocument standIn (normalBlock sectionWords document)
      = (ofDocument standIn document).mapError respelled :=
    foldlM_addNode_normal (.blank standIn) document
  refine ⟨hnormal, fun text text' htext htext' => ?_⟩
  simp only [ofText, htext, htext', hnormal]
  cases ofDocument standIn document <;> rfl

/-- A fault of a probe that quotes a name quotes it as it is written. -/
example :
    ofDocument "shop" [⟨"healthcheck", [], some
        [⟨"liveness", [], some [⟨"label", [], none⟩, ⟨"initial_delay", [], none⟩]⟩]⟩]
      = .error (.missingSetting "liveness" "initial_delay") ∧
    ofDocument "shop" [⟨"healthcheck", [], some
        [⟨"liveness", [], some [⟨"initial-delay", [], none⟩]⟩]⟩]
      = .error (.missingSetting "liveness" "initial-delay") :=
  ⟨rfl, rfl⟩

end App

end ProcessPlan
