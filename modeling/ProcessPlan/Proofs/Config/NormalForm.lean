import ProcessPlan.Config.Sections
import ProcessPlan.Proofs.Success

/-!
# Normal forms of documents

Every block that is read has its words, the names that mean something in it. Some of them have two
spellings, and a node of any other name says nothing. The normal form of a document keeps the nodes
whose names are words, under the first spelling, and so at every level; what stands below a node
whose block is data, or is not looked at, stays as it is.

What a reader of single nodes makes of a block is what it makes of the normal form, if each node and
its normal form are read alike. The one trace of a spelling is a fault that quotes it.

## Main definitions

* `Config.Word`, `Config.normalBlock`: words, and the normal form of a block with given words
* `Config.sectionWords`, …, `Config.hookWords`: the words of every block
* `Config.respelled`: a fault that quotes the first spelling
* `Config.Respects`: a reader reads a node as its normal form

## Main results

* `Config.respects_of_words`: a reader is looked at word by word
* `Config.Respects.map_mapM`, `Config.mapM_filter_normalBlock`: what is read of a whole block
-/

namespace ProcessPlan.Config

open Kdl (Node)

/-! ### Normal forms -/

/-- A name that means something in a block: its first spelling, the other ones, and the normal form
of the block of a node that has it. -/
structure Word where
  first : String
  others : List String
  below : List Node → List Node

/-- The spellings of a word. -/
def Word.spellings (word : Word) : List String := word.first :: word.others

/-- The word of a name, in any of its spellings. -/
def wordOf? (words : List Word) (name : String) : Option Word :=
  words.find? fun word => name ∈ word.spellings

/-- The node with another block, if it has a block. -/
def withBlock (change : List Node → List Node) (node : Node) : Node :=
  { node with children := node.children.map change }

/-- The normal form of a node, none if its name means nothing. -/
def normalNode? (words : List Word) (node : Node) : Option Node :=
  (wordOf? words node.name).map fun word => withBlock word.below { node with name := word.first }

/-- The normal form of a block. -/
def normalBlock (words : List Word) (block : List Node) : List Node :=
  block.filterMap (normalNode? words)

/-- Words of one spelling each. -/
def plainWords (names : List String) (below : List Node → List Node) : List Word :=
  names.map (⟨·, [], below⟩)

@[simp] theorem withBlock_id : withBlock id = id := by
  funext ⟨name, entries, children⟩
  simp [withBlock]

theorem childNodes_withBlock (words : List Word) (node : Node) :
    (withBlock (normalBlock words) node).childNodes = normalBlock words node.childNodes := by
  obtain ⟨name, entries, _ | block⟩ := node <;> rfl

theorem normalBlock_cons_of_none {words : List Word} {node : Node}
    (h : normalNode? words node = none) (rest : List Node) :
    normalBlock words (node :: rest) = normalBlock words rest :=
  List.filterMap_cons_none h

theorem normalBlock_cons_of_some {words : List Word} {node node' : Node}
    (h : normalNode? words node = some node') (rest : List Node) :
    normalBlock words (node :: rest) = node' :: normalBlock words rest :=
  List.filterMap_cons_some h

/-! ### The words of each block

A word whose normal form below is `id` has a block of data, or one that is not looked at. -/

/-- The words below a hook. -/
def hookWords : List Word := [⟨"exec", [], id⟩, ⟨"http-get", ["http_get"], id⟩]

/-- The words below the hooks of a process. -/
def lifecycleWords : List Word :=
  [⟨"post-start", ["post_start"], normalBlock hookWords⟩,
    ⟨"pre-stop", ["pre_stop"], normalBlock hookWords⟩]

/-- The word below a condition. -/
def expressionWords : List Word := plainWords ["values"] id

/-- The word below conditions that hold together. -/
def termWords : List Word := plainWords ["expression"] (normalBlock expressionWords)

/-- The word below the selection of nodes. -/
def selectorWords : List Word := plainWords ["term"] (normalBlock termWords)

/-- The words below the resources of a process. -/
def resourceWords : List Word := plainWords ["limits", "requests"] id

/-- The words below a process. -/
def processWords : List Word :=
  [⟨"command", ["cmd"], id⟩, ⟨"units", ["instances"], id⟩, ⟨"routable", [], id⟩,
    ⟨"env", ["environment"], id⟩, ⟨"security-context", ["security_context"], id⟩,
    ⟨"resources", [], normalBlock resourceWords⟩,
    ⟨"node-selector", ["node_selector"], normalBlock selectorWords⟩, ⟨"volume", [], id⟩,
    ⟨"volume-mount", ["volume_mount"], id⟩, ⟨"lifecycle", [], normalBlock lifecycleWords⟩]

/-- The word below the ports of one process. -/
def portWords : List Word := plainWords ["port"] id

/-- The word below the ports. -/
def portsWords : List Word := plainWords ["process"] (normalBlock portWords)

/-- The words below a probe. -/
def probeWords : List Word :=
  [⟨"http-get", ["http_get"], id⟩, ⟨"tcp-socket", ["tcp_socket"], id⟩, ⟨"exec", [], id⟩,
    ⟨"initial-delay", ["initial_delay"], id⟩, ⟨"period", [], id⟩, ⟨"timeout", [], id⟩,
    ⟨"success-threshold", ["success_threshold"], id⟩,
    ⟨"failure-threshold", ["failure_threshold"], id⟩]

/-- The words below a healthcheck. -/
def healthcheckWords : List Word :=
  plainWords ["readiness", "liveness", "startup"] (normalBlock probeWords)

/-- The word below labels and annotations. -/
def itemWords : List Word := plainWords ["item"] id

/-- The words of a document. -/
def sectionWords : List Word :=
  [⟨"app", [], id⟩, ⟨"process", [], normalBlock processWords⟩,
    ⟨"ports", [], normalBlock portsWords⟩, ⟨"exposed-ports", ["exposed_ports"], id⟩,
    ⟨"healthcheck", [], normalBlock healthcheckWords⟩, ⟨"labels", [], normalBlock itemWords⟩,
    ⟨"annotations", [], normalBlock itemWords⟩]

/-- The name of a setting below a process may be that of a variable, which is kept. -/
example :
    normalBlock sectionWords
        [⟨"process", [], some
          [⟨"cmd", [], none⟩, ⟨"limits", [], none⟩,
            ⟨"environment", [], some [⟨"cmd", [], none⟩, ⟨"limits", [], none⟩]⟩]⟩,
          ⟨"cmd", [], none⟩]
      = [⟨"process", [], some
          [⟨"command", [], none⟩,
            ⟨"env", [], some [⟨"cmd", [], none⟩, ⟨"limits", [], none⟩]⟩]⟩] := by
  rfl

/-- The fault with the first spelling of the setting that it quotes. -/
def respelled : ConfigFault → ConfigFault
  | .missingSetting kind name =>
    .missingSetting kind (((wordOf? probeWords name).map (·.first)).getD name)
  | fault => fault

/-! ### Reading blocks -/

section Blocks

variable {α β γ : Type} {words : List Word} {read : Node → Read β} {silent : β}

/-- A reader reads a node as its normal form, and a node that has none as silence. -/
def Respects (words : List Word) (read : Node → Read β) (silent : β) : Prop :=
  ∀ node, (normalNode? words node).elim (.ok silent) read = (read node).mapError respelled

/-- A reader has to be looked at for every other spelling, for every block, and for other names. -/
theorem respects_of_words
    (hspelling : ∀ word ∈ words, ∀ name ∈ word.others, ∀ entries children,
      (read ⟨name, entries, children⟩).mapError respelled
        = (read ⟨word.first, entries, children⟩).mapError respelled)
    (hblock : ∀ word ∈ words, ∀ entries children,
      read (withBlock word.below ⟨word.first, entries, children⟩)
        = (read ⟨word.first, entries, children⟩).mapError respelled)
    (hunknown : ∀ node : Node, (∀ word ∈ words, node.name ∉ word.spellings) →
      read node = .ok silent) : Respects words read silent := by
  rintro ⟨name, entries, children⟩
  rw [normalNode?]
  cases hword : wordOf? words name with
  | none =>
    rw [hunknown ⟨name, entries, children⟩ (by simpa [wordOf?] using hword)]
    rfl
  | some word =>
    have hmem : word ∈ words := List.mem_of_find?_eq_some hword
    have hname : name = word.first ∨ name ∈ word.others := by
      simpa [Word.spellings] using List.find?_some hword
    rw [Option.map_some, Option.elim_some, hblock word hmem]
    rcases hname with rfl | hother
    · rfl
    · exact (hspelling word hmem name hother entries children).symm

/-- What is collected from a block is what is collected from its normal form. -/
theorem Respects.map_mapM (h : Respects words read silent) (collect : List β → γ)
    (hcollect : ∀ before after, collect (before ++ silent :: after) = collect (before ++ after))
    (block : List Node) : ((normalBlock words block).mapM read).map collect
      = ((block.mapM read).map collect).mapError respelled := by
  induction block generalizing collect with
  | nil => rfl
  | cons node rest ih =>
    have hnode := h node
    rw [List.mapM_cons]
    cases hnormal : normalNode? words node with
    | none =>
      rw [hnormal, Option.elim_none] at hnode
      rw [normalBlock_cons_of_none hnormal, ih collect hcollect]
      cases hread : read node with
      | error fault =>
        rw [hread] at hnode
        cases hnode
      | ok b =>
        rw [hread] at hnode
        cases hnode
        cases rest.mapM read with
        | error fault => rfl
        | ok bs => exact congrArg Except.ok (hcollect [] bs).symm
    | some node' =>
      rw [hnormal, Option.elim_some] at hnode
      rw [normalBlock_cons_of_some hnormal, List.mapM_cons, hnode]
      cases read node with
      | error fault => rfl
      | ok b =>
        have hrest := ih (fun bs => collect (b :: bs))
          fun before after => hcollect (b :: before) after
        revert hrest
        cases (normalBlock words rest).mapM read <;> cases rest.mapM read <;> exact id

theorem wordOf?_plainWords (names : List String) (below : List Node → List Node)
    (name : String) : wordOf? (plainWords names below) name
      = if name ∈ names then some ⟨name, [], below⟩ else none := by
  induction names with
  | nil => rfl
  | cons first rest ih =>
    rw [plainWords, wordOf?] at ih ⊢
    rw [List.map_cons]
    by_cases hfirst : name = first
    · simp [hfirst, Word.spellings]
    · rw [List.find?_cons_of_neg (by simpa [Word.spellings] using hfirst), ih]
      simp [hfirst]

/-- Words of one spelling each only pick nodes. -/
theorem normalBlock_plainWords (names : List String) (below : List Node → List Node)
    (block : List Node) : normalBlock (plainWords names below) block
      = (block.filter (·.name ∈ names)).map (withBlock below) := by
  have hnode : normalNode? (plainWords names below)
      = fun node => if node.name ∈ names then some (withBlock below node) else none := by
    funext ⟨name, entries, children⟩
    rw [normalNode?, wordOf?_plainWords]
    by_cases hname : name ∈ names <;> simp [hname]
  rw [normalBlock, hnode, ← List.filterMap_eq_map, List.filterMap_filter]
  simp

/-- Picking nodes by name finds the same ones in a normal form that keeps their names. -/
theorem filter_normalBlock {names : List String} {below : List Node → List Node} {p : Node → Bool}
    (hp : ∀ node, p node = true ↔ node.name ∈ names) (block : List Node) :
    (normalBlock (plainWords names below) block).filter p
      = (block.filter p).map (withBlock below) := by
  have hname : p ∘ withBlock below = p := by
    funext node
    rw [Function.comp_apply, Bool.eq_iff_iff, hp, hp]
    rfl
  have hp' (node : Node) : p node = decide (node.name ∈ names) := by
    rw [Bool.eq_iff_iff, hp, decide_eq_true_iff]
  rw [normalBlock_plainWords, List.filter_map, hname, List.filter_filter]
  congr 1
  exact List.filter_congr fun node _ => by rw [← hp', Bool.and_self]

theorem mapM_filter_normalBlock {names : List String} {below : List Node → List Node}
    {p : Node → Bool} (hp : ∀ node, p node = true ↔ node.name ∈ names)
    (hread : ∀ node, read (withBlock below node) = (read node).mapError respelled)
    (block : List Node) : ((normalBlock (plainWords names below) block).filter p).mapM read
      = ((block.filter p).mapM read).mapError respelled := by
  rw [filter_normalBlock hp, List.mapM_map, mapError_mapM]
  exact congrArg (List.mapM · _) (funext hread)

end Blocks

end ProcessPlan.Config
