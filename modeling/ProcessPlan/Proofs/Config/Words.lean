import ProcessPlan.Proofs.Config.Described
import ProcessPlan.Proofs.Config.Healthcheck

/-!
# Words that are given as arguments

Four kinds of nodes give a list of words as their arguments: the command of a process, the commands
of probes and hooks, and the conditions of a node selector, which can give more below. Each of them
is read as the list of its arguments that are strings, in their order. So the words are all of the
arguments exactly if all of these are strings; any other argument is left out without a fault, and
those after it move up.

## Main definitions

* `Config.WordPlace`: the nodes that give words
* `Config.WordPlace.arguments`, `Config.WordPlace.Reads`: what they give, and what is read

## Main results

* `Config.WordPlace.reads_iff`, `Config.WordPlace.exists_reads`: the words that are read
* `Config.words_read_iff`: no argument is left out exactly if all of them are strings
-/

namespace ProcessPlan

namespace Config

open Kdl (Node Document Value)

/-! ### Strings among values -/

/-- A value that is a string. -/
def IsText (value : Value) : Prop := ∃ text, value = .text text

theorem isSome_text?_iff {value : Value} : value.text?.isSome = true ↔ IsText value := by
  cases value <;> simp [Value.text?, IsText]

/-- The texts of values are those values that are strings. -/
theorem map_text_filterMap (values : List Value) :
    (values.filterMap Value.text?).map Value.text = values.filter (·.text?.isSome) := by
  induction values with
  | nil => rfl
  | cons first rest ih =>
    cases first with
    | text s => exact congrArg (Value.text s :: ·) ih
    | _ => exact ih

/-- No value is left out exactly if all of them are strings. -/
theorem length_texts_iff {values : List Value} :
    (values.filterMap Value.text?).length = values.length ↔ ∀ value ∈ values, IsText value := by
  rw [← List.length_map Value.text, map_text_filterMap, List.length_filter_eq_length_iff]
  simp only [isSome_text?_iff]

/-! ### Places -/

/-- The place of a node that gives words: in the block of a process, of a probe, of a moment for
hooks, or of a term of a node selector. -/
inductive WordPlace where
  | command (process node : Node) (isProcess : process.name = "process")
      (inProcess : node ∈ process.childNodes)
      (isCommand : SettingKind.ofName? node.name = some .command)
  | probe (healthcheck check node : Node) (isHealthcheck : healthcheck.name = "healthcheck")
      (inHealthcheck : check ∈ healthcheck.childNodes) (isCheck : check.name ∈ probeKinds)
      (inCheck : node ∈ check.childNodes) (isExec : node.name = "exec")
  | hook (process lifecycle moment node : Node) (isProcess : process.name = "process")
      (inProcess : lifecycle ∈ process.childNodes)
      (isLifecycle : SettingKind.ofName? lifecycle.name = some .lifecycle)
      (inLifecycle : moment ∈ lifecycle.childNodes)
      (isMoment : (HookMoment.ofName? moment.name).isSome)
      (inMoment : node ∈ moment.childNodes) (isExec : node.name = "exec")
  | expression (process selector term node : Node) (isProcess : process.name = "process")
      (inProcess : selector ∈ process.childNodes)
      (isSelector : SettingKind.ofName? selector.name = some .nodeSelector)
      (inSelector : term ∈ selector.childNodes) (isTerm : term.name = "term")
      (inTerm : node ∈ term.childNodes) (isExpression : node.name = "expression")

namespace WordPlace

/-- The section that the place is in. -/
def sectionNode : WordPlace → Node
  | command process .. => process
  | probe healthcheck .. => healthcheck
  | hook process .. => process
  | expression process .. => process

/-- The arguments of the node, and for a condition those of the nodes for values below it. -/
def arguments : WordPlace → List Value
  | command _ node .. => node.arguments
  | probe _ _ node .. => node.arguments
  | hook _ _ _ node .. => node.arguments
  | expression _ _ _ node .. =>
    node.arguments ++ (node.childNodes.filter (·.name = "values")).flatMap Node.arguments

/-- The words that the node is read as. -/
def Reads (words : List String) : WordPlace → Prop
  | command process node .. => ∃ name, process.argumentText? = some name ∧
      readProcessSetting name node = .ok (some (.command words))
  | probe _ check node .. =>
    readProbeSetting check.name node = .ok (some (.action (.exec words)))
  | hook _ _ _ node .. => readHookAction node = .ok (some (.exec words))
  | expression _ _ _ node .. => ∃ e, readExpression node = .ok e ∧ e.values = words

variable {place : WordPlace} {words : List String}

/-- What is read are the arguments that are strings. -/
theorem Reads.eq_texts (h : place.Reads words) :
    words = place.arguments.filterMap Value.text? := by
  cases place with
  | command process node isProcess inProcess isCommand =>
    obtain ⟨name, -, h⟩ := h
    rw [readProcessSetting_eq, isCommand] at h
    cases h
    rfl
  | probe healthcheck check node isHealthcheck inHealthcheck isCheck inCheck isExec =>
    have hread : readProbeSetting check.name node = .ok (some (.action (.exec words))) := h
    rw [readProbeSetting, readProbeAction?_eq, isExec] at hread
    cases hread
    rfl
  | hook process lifecycle moment node isProcess inProcess isLifecycle inLifecycle isMoment
      inMoment isExec =>
    have hread : readHookAction node = .ok (some (.exec words)) := h
    rw [readHookAction, isExec] at hread
    cases hread
    rfl
  | expression process selector term node isProcess inProcess isSelector inSelector isTerm inTerm
      isExpression =>
    obtain ⟨e, hread, rfl⟩ := h
    obtain ⟨-, -, hvalues, -⟩ := readExpression_eq_ok_iff.1 hread
    rw [hvalues, arguments, List.filterMap_append, List.filterMap_flatMap]
    rfl

end WordPlace

/-! ### Conditions of a process that can be read -/

/-- The conditions of a process that is read are read. -/
theorem exists_expression_of_readProcess {process selector term node : Node} {spec : ProcessSpec}
    (h : readProcess process = .ok spec) (inProcess : selector ∈ process.childNodes)
    (isSelector : SettingKind.ofName? selector.name = some .nodeSelector)
    (inSelector : term ∈ selector.childNodes) (isTerm : term.name = "term")
    (inTerm : node ∈ term.childNodes) (isExpression : node.name = "expression") :
    ∃ e, readExpression node = .ok e := by
  obtain ⟨settings, -, hsettings, -⟩ := exists_settings h
  obtain ⟨setting, -, hsetting⟩ := exists_mem_of_mapM hsettings inProcess
  rw [readProcessSetting_eq, isSelector] at hsetting
  rcases readBlock_cases hsetting with ⟨hbody, -⟩ | ⟨block, terms, hbody, hterms, -⟩
  · rw [Node.childNodes, hbody] at inSelector
    cases inSelector
  · rw [Node.childNodes, hbody] at inSelector
    obtain ⟨_, -, hterm⟩ := exists_mem_of_mapM hterms
      (List.mem_filter.2 ⟨inSelector, decide_eq_true isTerm⟩)
    obtain ⟨expressions, hexpressions, -⟩ := map_eq_ok_iff.1 hterm
    obtain ⟨e, -, he⟩ := exists_mem_of_mapM hexpressions
      (List.mem_filter.2 ⟨inTerm, decide_eq_true isExpression⟩)
    exact ⟨e, he⟩

namespace WordPlace

variable {place : WordPlace} {standIn : String} {document : Document} {app : App}

/-- In a document that declares an application, words are read in each place. -/
theorem exists_reads (hplace : place.sectionNode ∈ document)
    (happ : App.ofDocument standIn document = .ok app) : ∃ words, place.Reads words := by
  cases place with
  | command process node isProcess inProcess isCommand =>
    obtain ⟨spec, -, hspec⟩ := App.exists_process_of_mem happ hplace isProcess
    refine ⟨node.argumentTexts, spec.name, name_of_readProcess hspec, ?_⟩
    rw [readProcessSetting_eq, isCommand]
  | probe healthcheck check node isHealthcheck inHealthcheck isCheck inCheck isExec =>
    refine ⟨node.argumentTexts, ?_⟩
    rw [Reads, readProbeSetting, readProbeAction?_eq, isExec]
    rfl
  | hook process lifecycle moment node isProcess inProcess isLifecycle inLifecycle isMoment
      inMoment isExec =>
    refine ⟨node.argumentTexts, ?_⟩
    rw [Reads, readHookAction, isExec]
    rfl
  | expression process selector term node isProcess inProcess isSelector inSelector isTerm inTerm
      isExpression =>
    obtain ⟨spec, -, hspec⟩ := App.exists_process_of_mem happ hplace isProcess
    obtain ⟨e, he⟩ := exists_expression_of_readProcess hspec inProcess isSelector inSelector isTerm
      inTerm isExpression
    exact ⟨e.values, e, he, rfl⟩

end WordPlace

/-- **Words that are given as arguments.** In every document that declares an application there is
one list of words that is read in each place. It has as many words as there are arguments exactly if
all of these are strings, and then it has all of them in their order. -/
theorem words_read_iff {place : WordPlace} {standIn : String} {document : Document} {app : App}
    (hplace : place.sectionNode ∈ document) (happ : App.ofDocument standIn document = .ok app) :
    ∃ words, place.Reads words ∧ (∀ other, place.Reads other → other = words) ∧
      (words.length = place.arguments.length ↔ ∀ value ∈ place.arguments, IsText value) ∧
      ((∀ value ∈ place.arguments, IsText value) → words.map .text = place.arguments) := by
  obtain ⟨words, hwords⟩ := place.exists_reads hplace happ
  refine ⟨words, hwords, fun other hother => hother.eq_texts.trans hwords.eq_texts.symm, ?_, ?_⟩
  · rw [hwords.eq_texts, length_texts_iff]
  · intro htexts
    rw [hwords.eq_texts, map_text_filterMap, List.filter_eq_self]
    exact fun value hvalue => isSome_text?_iff.2 (htexts value hvalue)

/-- A node with values for its arguments. -/
def worded (name : String) (values : List Value) : Node := ⟨name, values.map (⟨none, ·⟩), none⟩

/-- A condition with values for its arguments. -/
def condition (values : List Value) : Node :=
  { worded "expression" values with
    entries := ⟨some "key", .text "zone"⟩ :: values.map (⟨none, ·⟩) }

/-- A process node with values for the arguments of its command, a hook and a condition. -/
def spokenProcess (values : List Value) : Node :=
  ⟨"process", [⟨none, .text "web"⟩], some
    [worded "command" values,
      ⟨"lifecycle", [], some [⟨"pre-stop", [], some [worded "exec" values]⟩]⟩,
      ⟨"node-selector", [], some [⟨"term", [], some [condition values]⟩]⟩]⟩

/-- A healthcheck node with values for the arguments of a probe. -/
def spokenCheck (values : List Value) : Node :=
  ⟨"healthcheck", [], some [⟨"liveness", [], some [worded "exec" values]⟩]⟩

/-- The places of these values. -/
def spokenPlaces (values : List Value) : List WordPlace :=
  [.command (spokenProcess values) (worded "command" values) rfl (.head _) rfl,
    .probe (spokenCheck values) ⟨"liveness", [], some [worded "exec" values]⟩
      (worded "exec" values) rfl (.head _) (.tail _ (.head _)) (.head _) rfl,
    .hook (spokenProcess values)
      ⟨"lifecycle", [], some [⟨"pre-stop", [], some [worded "exec" values]⟩]⟩
      ⟨"pre-stop", [], some [worded "exec" values]⟩ (worded "exec" values) rfl
      (.tail _ (.head _)) rfl (.head _) rfl (.head _) rfl,
    .expression (spokenProcess values)
      ⟨"node-selector", [], some [⟨"term", [], some [condition values]⟩]⟩
      ⟨"term", [], some [condition values]⟩ (condition values) rfl
      (.tail _ (.tail _ (.head _))) rfl (.head _) rfl (.head _) rfl]

/-- The document that they are in. -/
def spoken (values : List Value) : Document := [spokenProcess values, spokenCheck values]

theorem sectionNode_of_mem_spokenPlaces {values : List Value} {place : WordPlace}
    (h : place ∈ spokenPlaces values) : place.sectionNode ∈ spoken values := by
  simp only [spokenPlaces, List.mem_cons, List.not_mem_nil, or_false] at h
  rcases h with rfl | rfl | rfl | rfl
  exacts [.head _, .tail _ (.head _), .head _, .head _]

theorem arguments_worded (name : String) (values : List Value) :
    (worded name values).arguments = values := by
  simp [worded, Node.arguments, List.filter_map, Function.comp_def]

theorem arguments_of_mem_spokenPlaces {values : List Value} {place : WordPlace}
    (h : place ∈ spokenPlaces values) : place.arguments = values := by
  simp only [spokenPlaces, List.mem_cons, List.not_mem_nil, or_false] at h
  rcases h with rfl | rfl | rfl | rfl
  · exact arguments_worded "command" values
  · exact arguments_worded "exec" values
  · exact arguments_worded "exec" values
  · exact (List.append_nil _).trans (arguments_worded "expression" values)

/-- Where the arguments are two strings, both are read. -/
theorem sleep_kept :
    (∃ app, App.ofDocument "shop" (spoken [.text "sleep", .text "5"]) = .ok app) ∧
    ∀ place ∈ spokenPlaces [.text "sleep", .text "5"], place.Reads ["sleep", "5"] := by
  obtain ⟨app, happ⟩ : ∃ app, App.ofDocument "shop" (spoken [.text "sleep", .text "5"]) = .ok app :=
    ⟨_, rfl⟩
  refine ⟨⟨app, happ⟩, fun place hplace => ?_⟩
  obtain ⟨words, hwords, -, -, hall⟩ :=
    words_read_iff (sectionNode_of_mem_spokenPlaces hplace) happ
  rw [arguments_of_mem_spokenPlaces hplace] at hall
  have heq : words.map .text = [Value.text "sleep", .text "5"] := hall (by simp [IsText])
  have hsame : words = ["sleep", "5"] :=
    List.map_injective_iff.2 (fun _ _ => Value.text.inj) (heq.trans rfl)
  exact hsame ▸ hwords

/-- Where one of them is the number 5, it is left out. -/
theorem sleep_cut : (∃ app, App.ofDocument "shop" (spoken [.text "sleep", .int 5]) = .ok app) ∧
    ∀ place ∈ spokenPlaces [.text "sleep", .int 5],
      place.arguments = [.text "sleep", .int 5] ∧ place.Reads ["sleep"] ∧
        ¬ ∃ words, place.Reads words ∧ words.length = place.arguments.length := by
  obtain ⟨app, happ⟩ : ∃ app, App.ofDocument "shop" (spoken [.text "sleep", .int 5]) = .ok app :=
    ⟨_, rfl⟩
  refine ⟨⟨app, happ⟩, fun place hplace => ?_⟩
  have hargs := arguments_of_mem_spokenPlaces hplace
  obtain ⟨words, hwords⟩ := place.exists_reads (sectionNode_of_mem_spokenPlaces hplace) happ
  have htexts {other : List String} (h : place.Reads other) : other = ["sleep"] := by
    rw [h.eq_texts, hargs]
    rfl
  refine ⟨hargs, htexts hwords ▸ hwords, ?_⟩
  rintro ⟨other, hother, hlength⟩
  rw [htexts hother, hargs] at hlength
  cases hlength

end Config

end ProcessPlan
