import ProcessPlan.Proofs.Config.Described
import ProcessPlan.Proofs.Config.Items
import ProcessPlan.Proofs.Data.Json

/-!
# Where plain values show

A plain value, that is a string, a number or a truth value, can be given in three places: to a
variable of a process, to a key of an item, and to a quantity of the resources. One function turns
all of them into text, and each place has a way of its own to do without one: the variable and the
key get the empty text, and the quantity is left out. So whatever has no text is lost without a
fault. That is how it goes with a number that is written with a fraction or an exponent. Every other
plain value shows in the application.

## Main definitions

* `Config.HasText`: the values that are turned into text
* `Config.VariablePlace`, `Config.EntryPlace`, `Config.QuantityPlace`: the places of a value
* `Config.ValuePlace.Shown`: the value of a place shows in an application

## Main results

* `Config.getD_plainText?_iff`: the empty text stands for an empty string alone
* `Config.value_shown_iff`: a value shows exactly if it has a text
-/

namespace ProcessPlan

namespace Config

open Kdl (Node Document Value)

variable {value : Value}

/-! ### The text of a value -/

/-- The values that are turned into text: strings, integers and truth values. -/
inductive HasText : Value → Prop where
  | text (s : String) : HasText (.text s)
  | int (n : Int) : HasText (.int n)
  | bool (b : Bool) : HasText (.bool b)

theorem exists_plainText?_iff : (∃ text, plainText? value = some text) ↔ HasText value := by
  cases value with
  | text s => exact iff_of_true ⟨s, rfl⟩ (.text s)
  | int n => exact iff_of_true ⟨_, rfl⟩ (.int n)
  | bool b => exact iff_of_true ⟨_, rfl⟩ (.bool b)
  | real x => exact iff_of_false nofun nofun
  | null => exact iff_of_false nofun nofun

/-- A text that stands for a value, the empty one only for the empty string. -/
def StandsFor (text : String) (value : Value) : Prop := text = "" → value = .text ""

/-- Where the empty text takes the place of none, it stands for the empty string alone. -/
theorem getD_plainText?_iff : StandsFor ((plainText? value).getD "") value ↔ HasText value := by
  cases value with
  | text s => exact iff_of_true (congrArg Value.text) (.text s)
  | int n =>
    refine iff_of_true (fun h => absurd ?_ (Json.toList_toString_ne_nil n)) (.int n)
    exact congrArg String.toList h
  | bool b => exact iff_of_true (by cases b <;> exact fun h => absurd h (by decide)) (.bool b)
  | real x => exact iff_of_false (fun h => nomatch h rfl) nofun
  | null => exact iff_of_false (fun h => nomatch h rfl) nofun

/-! ### Places -/

/-- The place of a node in a block for variables of a process. -/
structure VariablePlace where
  process : Node
  first : List Node
  setting : Node
  last : List Node
  front : List Node
  node : Node
  back : List Node
  isProcess : process.name = "process"
  isSetting : SettingKind.ofName? setting.name = some .environment
  body : process.children = some (first ++ setting :: last)
  block : setting.children = some (front ++ node :: back)

/-- The place of a node in the block of an item that sets a key which no later node there sets. -/
structure EntryPlace where
  kind : MetadataKind
  listing : Node
  item : Node
  front : List Node
  node : Node
  back : List Node
  isListing : SectionKind.ofName? listing.name = some (.ofItems kind)
  isItem : item.name = "item"
  listed : item ∈ listing.childNodes
  block : item.children = some (front ++ node :: back)
  isLast : ∀ later ∈ back, later.name ≠ node.name

/-- The place of a node among the limits or the requests of a process, in the last block that it has
for resources. -/
structure QuantityPlace where
  process : Node
  block : List Node
  table : Node
  node : Node
  isProcess : process.name = "process"
  isLast : (settingBlocks .resources process.childNodes).getLast? = some block
  listed : table ∈ block
  isTable : table.name ∈ ["limits", "requests"]
  inTable : node ∈ table.childNodes

/-- The number of variables that stand in front of one. -/
def VariablePlace.index (place : VariablePlace) : Nat :=
  ((settingNodes .environment place.first).flatMap readEnvironment).length + place.front.length

/-- The quantities that are read from nodes of a name. -/
def quantityTable (resources : Resources) (name : String) : Table String :=
  if name = "limits" then resources.limits else resources.requests

/-- In its place among the variables of the process, there is one with the name of the node and a
text that stands for the value. -/
def VariablePlace.Shown (place : VariablePlace) (app : App) (value : Value) : Prop :=
  ∃ spec ∈ app.processes, ∃ text, readProcess place.process = .ok spec ∧
    spec.environment[place.index]? = some ⟨place.node.name, text⟩ ∧ StandsFor text value

/-- The item has a text under the name of the node that stands for the value. -/
def EntryPlace.Shown (place : EntryPlace) (app : App) (value : Value) : Prop :=
  ∃ item ∈ app.items place.kind, ∃ text, readItem place.item = .ok item ∧
    item.entries.find? place.node.name = some text ∧ StandsFor text value

/-- The resources of the process have a quantity under the name of the node. -/
def QuantityPlace.Shown (place : QuantityPlace) (app : App) : Prop :=
  ∃ spec ∈ app.processes, ∃ resources, readProcess place.process = .ok spec ∧
    spec.resources = some resources ∧
    (quantityTable resources place.table.name).find? place.node.name ≠ none

/-! ### What shows there -/

section Shown

variable {standIn : String} {document : Document} {app : App}

theorem VariablePlace.getElem?_environment {place : VariablePlace} {spec : ProcessSpec}
    (h : readProcess place.process = .ok spec) :
    spec.environment[place.index]? = some (envVarOfNode place.node) := by
  have hbody : place.process.childNodes = place.first ++ place.setting :: place.last := by
    rw [Node.childNodes, place.body, Option.getD_some]
  have hread : readEnvironment place.setting
      = place.front.map envVarOfNode ++ envVarOfNode place.node :: place.back.map envVarOfNode := by
    rw [readEnvironment, place.block, ← List.map_cons, ← List.map_append]
  rw [environment_of_readProcess h, hbody, settingNodes, List.filter_append,
    List.filter_cons_of_pos (by simp [place.isSetting]), List.flatMap_append, List.flatMap_cons,
    hread, ← settingNodes]
  simp [index]

theorem VariablePlace.shown_iff {place : VariablePlace} (hvalue : place.node.argument? = some value)
    (happ : App.ofDocument standIn document = .ok app) (hplace : place.process ∈ document) :
    place.Shown app value ↔ HasText value := by
  have hnode : envVarOfNode place.node = ⟨place.node.name, (plainText? value).getD ""⟩ := by
    rw [envVarOfNode, argumentPlainText?, hvalue, Option.bind_some]
  rw [← getD_plainText?_iff]
  constructor
  · rintro ⟨spec, -, text, hread, hvar, htext⟩
    rw [getElem?_environment hread, hnode] at hvar
    cases hvar
    exact htext
  · intro htext
    obtain ⟨spec, hspec, hread⟩ := App.exists_process_of_mem happ hplace place.isProcess
    exact ⟨spec, hspec, _, hread, by rw [getElem?_environment hread, hnode], htext⟩

theorem EntryPlace.find?_entries {place : EntryPlace} {item : MetadataItem}
    (h : readItem place.item = .ok item) : item.entries.find? place.node.name
      = some ((argumentPlainText? place.node).getD "") := by
  rw [entries_of_readItem h]
  refine Table.find?_ofList_eq_some_iff.2
    ⟨place.front.map itemEntry, place.back.map itemEntry, ?_, ?_⟩
  · rw [Node.childNodes, place.block, Option.getD_some, List.map_append, List.map_cons]
    rfl
  · simpa [itemEntry] using place.isLast

/-- The items of a listing are among those of the application. -/
theorem EntryPlace.exists_item {place : EntryPlace}
    (happ : App.ofDocument standIn document = .ok app) (hplace : place.listing ∈ document) :
    ∃ item ∈ app.items place.kind, readItem place.item = .ok item := by
  obtain ⟨items, hitems, hpart⟩ := exists_readItems happ hplace place.isListing
  obtain ⟨item, hitem, hread⟩ := exists_mem_of_mapM hitems
    (List.mem_filter.2 ⟨place.listed, decide_eq_true place.isItem⟩)
  obtain ⟨before, after, rfl⟩ := List.append_of_mem hplace
  have hcomposed := App.composedOf_of_ofDocument happ
  rw [sections_split hpart] at hcomposed
  exact ⟨item, by simp [hcomposed.items, hitem], hread⟩

theorem EntryPlace.shown_iff {place : EntryPlace} (hvalue : place.node.argument? = some value)
    (happ : App.ofDocument standIn document = .ok app) (hplace : place.listing ∈ document) :
    place.Shown app value ↔ HasText value := by
  have hnode : argumentPlainText? place.node = plainText? value := by
    rw [argumentPlainText?, hvalue, Option.bind_some]
  rw [← getD_plainText?_iff, ← hnode]
  constructor
  · rintro ⟨item, -, text, hread, hentry, htext⟩
    rw [find?_entries hread] at hentry
    cases hentry
    exact htext
  · intro htext
    obtain ⟨item, hitem, hread⟩ := exists_item happ hplace
    exact ⟨item, hitem, _, hread, find?_entries hread, htext⟩

theorem quantityTable_resourcesOfBlock {name : String} (h : name ∈ ["limits", "requests"])
    (block : List Node) : quantityTable (resourcesOfBlock block) name = quantities name block := by
  rcases List.mem_pair.1 h with rfl | rfl <;> rfl

/-- There is a quantity of a name exactly if a node with the name has a text. -/
theorem find?_quantities_ne_none_iff {name key : String} {block : List Node} :
    (quantities name block).find? key ≠ none ↔ ∃ table ∈ block, table.name = name ∧
      ∃ node ∈ table.childNodes, node.name = key ∧ ∃ text, argumentPlainText? node = some text := by
  rw [quantities, Ne, Table.find?_ofList_eq_none_iff]
  constructor
  · intro h
    push Not at h
    obtain ⟨entry, hentry, hkey⟩ := h
    obtain ⟨table, htable, hentry⟩ := List.mem_flatMap.1 hentry
    obtain ⟨node, hnode, hquantity⟩ := List.mem_filterMap.1 hentry
    obtain ⟨hname, htext⟩ := quantity?_eq_some_iff.1 hquantity
    have hmem := List.mem_filter.1 htable
    exact ⟨table, hmem.1, of_decide_eq_true hmem.2, node, hnode, hname.trans hkey, _, htext⟩
  · rintro ⟨table, htable, hname, node, hnode, hkey, text, htext⟩ hnone
    refine hnone (key, text) (List.mem_flatMap.2 ⟨table, ?_, ?_⟩) rfl
    · exact List.mem_filter.2 ⟨htable, decide_eq_true hname⟩
    · exact List.mem_filterMap.2 ⟨node, hnode, quantity?_eq_some_iff.2 ⟨hkey, htext⟩⟩

/-- All nodes with the name of a quantity, in all tables with the name of its own, give a value. -/
def QuantityPlace.Agreed (place : QuantityPlace) (value : Value) : Prop :=
  ∀ table ∈ place.block, table.name = place.table.name → ∀ node ∈ table.childNodes,
    node.name = place.node.name → node.argument? = some value

theorem QuantityPlace.shown_iff {place : QuantityPlace}
    (happ : App.ofDocument standIn document = .ok app) (hplace : place.process ∈ document) :
    place.Shown app ↔ (quantities place.table.name place.block).find? place.node.name ≠ none := by
  have hresources {spec : ProcessSpec} (hread : readProcess place.process = .ok spec) :
      spec.resources = some (resourcesOfBlock place.block) := by
    rw [resources_of_readProcess hread, place.isLast, Option.map_some]
  rw [← quantityTable_resourcesOfBlock place.isTable]
  constructor
  · rintro ⟨spec, -, resources, hread, hspec, hfind⟩
    rw [hresources hread] at hspec
    cases hspec
    exact hfind
  · intro hfind
    obtain ⟨spec, hspec, hread⟩ := App.exists_process_of_mem happ hplace place.isProcess
    exact ⟨spec, hspec, _, hread, hresources hread, hfind⟩

theorem exists_argumentPlainText?_iff {node : Node} (hvalue : node.argument? = some value) :
    (∃ text, argumentPlainText? node = some text) ↔ HasText value := by
  rw [argumentPlainText?, hvalue, Option.bind_some]
  exact exists_plainText?_iff

theorem QuantityPlace.shown_of_hasText {place : QuantityPlace}
    (hvalue : place.node.argument? = some value)
    (happ : App.ofDocument standIn document = .ok app) (hplace : place.process ∈ document)
    (htext : HasText value) : place.Shown app :=
  (place.shown_iff happ hplace).2 (find?_quantities_ne_none_iff.2 ⟨place.table, place.listed, rfl,
    place.node, place.inTable, rfl, (exists_argumentPlainText?_iff hvalue).2 htext⟩)

theorem QuantityPlace.hasText_of_shown {place : QuantityPlace} (hagreed : place.Agreed value)
    (happ : App.ofDocument standIn document = .ok app) (hplace : place.process ∈ document)
    (h : place.Shown app) : HasText value := by
  obtain ⟨table, htable, hname, node, hnode, hkey, htext⟩ :=
    find?_quantities_ne_none_iff.1 ((place.shown_iff happ hplace).1 h)
  exact (exists_argumentPlainText?_iff (hagreed table htable hname node hnode hkey)).1 htext

end Shown

/-! ### All places -/

/-- A place where a plain value can be given. -/
inductive ValuePlace where
  | envVar (place : VariablePlace)
  | entry (place : EntryPlace)
  | quantity (place : QuantityPlace)

namespace ValuePlace

/-- The section that the place is in. -/
def sectionNode : ValuePlace → Node
  | .envVar place => place.process
  | .entry place => place.listing
  | .quantity place => place.process

/-- The node that gives the value. -/
def node : ValuePlace → Node
  | .envVar place => place.node
  | .entry place => place.node
  | .quantity place => place.node

/-- The value of the place shows in an application. -/
def Shown (app : App) (value : Value) : ValuePlace → Prop
  | .envVar place => place.Shown app value
  | .entry place => place.Shown app value
  | .quantity place => place.Shown app

/-- No other node makes up for what is lost of a place. None can for a variable or an entry, and
those for a quantity of the same name must not say anything else. -/
def Alone (value : Value) : ValuePlace → Prop
  | .envVar _ => True
  | .entry _ => True
  | .quantity place => place.Agreed value

section Shown

variable {place : ValuePlace} {standIn : String} {document : Document} {app : App}

theorem shown_of_hasText (hvalue : place.node.argument? = some value)
    (hplace : place.sectionNode ∈ document) (happ : App.ofDocument standIn document = .ok app)
    (htext : HasText value) : place.Shown app value := by
  cases place with
  | envVar place => exact (place.shown_iff hvalue happ hplace).2 htext
  | entry place => exact (place.shown_iff hvalue happ hplace).2 htext
  | quantity place => exact place.shown_of_hasText hvalue happ hplace htext

theorem hasText_of_shown (hvalue : place.node.argument? = some value)
    (hplace : place.sectionNode ∈ document) (happ : App.ofDocument standIn document = .ok app)
    (halone : place.Alone value) (h : place.Shown app value) : HasText value := by
  cases place with
  | envVar place => exact (place.shown_iff hvalue happ hplace).1 h
  | entry place => exact (place.shown_iff hvalue happ hplace).1 h
  | quantity place => exact place.hasText_of_shown halone happ hplace h

end Shown

end ValuePlace

/-- **Where plain values show.** In every document that declares an application, a string, an
integer and a truth value show in each place; and where no other node makes up for it, nothing else
does. So a number with a fraction or an exponent is lost. -/
theorem value_shown_iff {place : ValuePlace} {standIn : String} {document : Document} {app : App}
    (hvalue : place.node.argument? = some value) (hplace : place.sectionNode ∈ document)
    (happ : App.ofDocument standIn document = .ok app) :
    (HasText value → place.Shown app value) ∧
      (place.Alone value → place.Shown app value → HasText value) :=
  ⟨place.shown_of_hasText hvalue hplace happ, place.hasText_of_shown hvalue hplace happ⟩

/-- A node that gives a value. -/
def given (name : String) (value : Value) : Node := ⟨name, [⟨none, value⟩], none⟩

/-- A node with a block. -/
def nested (name : String) (block : List Node) : Node := ⟨name, [], some block⟩

/-- A process node that gives one value to a variable and to a limit. -/
def pricedProcess (value : Value) : Node :=
  ⟨"process", [⟨none, .text "web"⟩], some
    [nested "env" [given "RATE" value], nested "resources" [nested "limits" [given "cpu" value]]]⟩

/-- An item node that gives a value to a key. -/
def pricedItem (value : Value) : Node :=
  ⟨"item", [⟨some "target", .text "pod"⟩], some [given "rate" value]⟩

/-- The places of a value that is given to a variable, to a label and to a limit. -/
def pricedPlaces (value : Value) : List ValuePlace :=
  [.envVar {
      process := pricedProcess value
      first := []
      setting := nested "env" [given "RATE" value]
      last := [nested "resources" [nested "limits" [given "cpu" value]]]
      front := []
      node := given "RATE" value
      back := []
      isProcess := rfl
      isSetting := rfl
      body := rfl
      block := rfl },
    .entry {
      kind := .labels
      listing := nested "labels" [pricedItem value]
      item := pricedItem value
      front := []
      node := given "rate" value
      back := []
      isListing := rfl
      isItem := rfl
      listed := .head _
      block := rfl
      isLast := nofun },
    .quantity {
      process := pricedProcess value
      block := [nested "limits" [given "cpu" value]]
      table := nested "limits" [given "cpu" value]
      node := given "cpu" value
      isProcess := rfl
      isLast := rfl
      listed := .head _
      isTable := .head _
      inTable := .head _ }]

/-- The document that they are in. -/
def priced (value : Value) : Document := [pricedProcess value, nested "labels" [pricedItem value]]

/-- The application that it declares, with the text and the limits that the value makes. -/
def pricedApp (text : String) (limits : Table String) : App :=
  { App.blank "shop" with
    processes := [{ ProcessSpec.blank "web" false with
      environment := [⟨"RATE", text⟩]
      resources := some ⟨limits, ∅⟩ }]
    labels := [⟨.pod, none, none, .ofList [("rate", text)]⟩] }

theorem argument?_of_mem_pricedPlaces {place : ValuePlace} (h : place ∈ pricedPlaces value) :
    place.node.argument? = some value := by
  simp only [pricedPlaces, List.mem_cons, List.not_mem_nil, or_false] at h
  rcases h with rfl | rfl | rfl <;> rfl

theorem sectionNode_of_mem_pricedPlaces {place : ValuePlace} (h : place ∈ pricedPlaces value) :
    place.sectionNode ∈ priced value := by
  simp only [pricedPlaces, List.mem_cons, List.not_mem_nil, or_false] at h
  rcases h with rfl | rfl | rfl
  exacts [.head _, .tail _ (.head _), .head _]

theorem alone_of_mem_pricedPlaces {place : ValuePlace} (h : place ∈ pricedPlaces value) :
    place.Alone value := by
  simp only [pricedPlaces, List.mem_cons, List.not_mem_nil, or_false] at h
  rcases h with rfl | rfl | rfl
  · trivial
  · trivial
  · intro table htable _ node hnode _
    obtain rfl := List.mem_singleton.1 htable
    obtain rfl := List.mem_singleton.1 hnode
    rfl

/-- The integer 5 shows in all three places. -/
theorem five_shown :
    App.ofDocument "shop" (priced (.int 5)) = .ok (pricedApp "5" (.ofList [("cpu", "5")])) ∧
    ∀ place ∈ pricedPlaces (.int 5), place.Alone (.int 5) ∧
      place.Shown (pricedApp "5" (.ofList [("cpu", "5")])) (.int 5) := by
  have happ : App.ofDocument "shop" (priced (.int 5))
      = .ok (pricedApp "5" (.ofList [("cpu", "5")])) := by decide +kernel
  refine ⟨happ, fun place hplace => ⟨alone_of_mem_pricedPlaces hplace, ?_⟩⟩
  exact (value_shown_iff (argument?_of_mem_pricedPlaces hplace)
    (sectionNode_of_mem_pricedPlaces hplace) happ).1 (.int 5)

/-- The number 0.5. -/
def half : Value := .real (.ofDecimal false 5 (-1))

/-- It shows in none of them: the variable and the label are empty, and there is no limit. -/
theorem half_lost :
    App.ofDocument "shop" (priced half) = .ok (pricedApp "" ∅) ∧
    ∀ place ∈ pricedPlaces half,
      place.node.argument? = some half ∧ ¬ place.Shown (pricedApp "" ∅) half := by
  have happ : App.ofDocument "shop" (priced half) = .ok (pricedApp "" ∅) := by decide +kernel
  refine ⟨happ, fun place hplace => ⟨argument?_of_mem_pricedPlaces hplace, fun hshown => ?_⟩⟩
  have htext : HasText half := place.hasText_of_shown (argument?_of_mem_pricedPlaces hplace)
    (sectionNode_of_mem_pricedPlaces hplace) happ (alone_of_mem_pricedPlaces hplace) hshown
  cases htext

end Config

end ProcessPlan
