import ProcessPlan.Proofs.App.Locality
import ProcessPlan.Proofs.Config.Composition
import ProcessPlan.Proofs.Success

/-!
# Items that are meant for one process

An item of metadata can name the process it is meant for. If the property holds a string, the item
concerns that process alone: the document without it declares an application in which every other
process is built as before, at every version and with the same fault if it fails. A property of
another type is not refused. It is read as if it were not there, and then the item is meant for all
processes.

## Main definitions

* `Config.ItemPlace`: the place of an item node in a document
* `Config.ItemPlace.document`, `Config.ItemPlace.without`: the document with and without the node

## Main results

* `Config.ItemPlace.ofDocument_without`: a document without an item declares the same but for it
* `Config.ItemPlace.buildProcess_without`: without an item for one process, the others are the same
* `Config.item_restricted_iff`: the property keeps an item from other processes exactly if it is a
  string
-/

namespace ProcessPlan

namespace Config

open Kdl (Node Document Value)

/-! ### One section in the place of another -/

variable {before after : Document} {node node' : Node} {part part' : Section}

theorem sections_split (h : readSection node = .ok part) :
    sections (before ++ node :: after) = sections before ++ part :: sections after := by
  simp [sections, h, Except.toOption]

/-- A section that declares the same processes can stand in the place of another. -/
theorem Sound.exchange (h : Sound (before ++ node :: after)) (hread : readSection node = .ok part)
    (hread' : readSection node' = .ok part') (hspecs : part'.specs = part.specs) :
    Sound (before ++ node' :: after) := by
  constructor
  · intro other hother hrecognised
    rcases List.mem_append.1 hother with hbefore | hafter
    · exact h.readable other (List.mem_append_left _ hbefore) hrecognised
    · rcases List.mem_cons.1 hafter with rfl | hafter
      · exact ⟨part', hread'⟩
      · exact h.readable other (List.mem_append_right _ (List.mem_cons_of_mem _ hafter)) hrecognised
  · have hdistinct := h.distinct
    rw [processNames, sections_split hread, List.flatMap_append, List.flatMap_cons] at hdistinct
    rw [processNames, sections_split hread', List.flatMap_append, List.flatMap_cons, hspecs]
    exact hdistinct

/-! ### The items of a kind -/

/-- The section that lists the items of a kind. -/
def Section.ofItems : MetadataKind → List MetadataItem → Section
  | .labels => .labels
  | .annotations => .annotations

/-- The items of a kind that a section lists. -/
def Section.items : MetadataKind → Section → List MetadataItem
  | .labels => labelItems
  | .annotations => annotationItems

@[simp] theorem Section.items_ofItems (kind : MetadataKind) (items : List MetadataItem) :
    Section.items kind (.ofItems kind items) = items := by
  cases kind <;> rfl

/-- The kind of section that lists the items of a kind. -/
def SectionKind.ofItems : MetadataKind → SectionKind
  | .labels => .labels
  | .annotations => .annotations

theorem readSection_of_items {kind : MetadataKind}
    (h : SectionKind.ofName? node.name = some (.ofItems kind)) :
    readSection node = (readItems node).map (.ofItems kind) := by
  rw [readSection_eq, h]
  cases kind <;> rfl

/-- The items of a listing in a document that declares an application can be read. -/
theorem exists_readItems {standIn : String} {document : Document} {app : App} {kind : MetadataKind}
    (h : App.ofDocument standIn document = .ok app) (hnode : node ∈ document)
    (hlisting : SectionKind.ofName? node.name = some (.ofItems kind)) :
    ∃ items, readItems node = .ok items ∧ readSection node = .ok (.ofItems kind items) := by
  have hsound := (App.exists_ofDocument_iff standIn).1 ⟨app, h⟩
  obtain ⟨part, hpart⟩ := hsound.readable node hnode (by rw [hlisting]; rfl)
  have hread := readSection_of_items hlisting
  rw [hpart] at hread
  obtain ⟨items, hitems, rfl⟩ := map_eq_ok_iff.1 hread.symm
  exact ⟨items, hitems, hpart⟩

end Config

open Config (Section)

namespace App

variable {standIn : String} {first last : List Section} {kind : MetadataKind} {app : App}

/-- An application with other items of a kind. -/
def withItems (app : App) : MetadataKind → List MetadataItem → App
  | .labels, items => { app with labels := items }
  | .annotations, items => { app with annotations := items }

@[simp] theorem withItems_items (app : App) (kind : MetadataKind) :
    app.withItems kind (app.items kind) = app := by
  cases kind <;> rfl

theorem ComposedOf.items (h : app.ComposedOf standIn first) :
    app.items kind = first.flatMap (Section.items kind) := by
  cases kind with
  | labels => exact h.labels
  | annotations => exact h.annotations

/-- With other items in one section, an application has other items of that kind. -/
theorem ComposedOf.exchange {items : List MetadataItem}
    (h : app.ComposedOf standIn (first ++ .ofItems kind items :: last))
    (items' : List MetadataItem) :
    (app.withItems kind (first.flatMap (Section.items kind) ++
      (items' ++ last.flatMap (Section.items kind)))).ComposedOf standIn
        (first ++ .ofItems kind items' :: last) := by
  obtain ⟨hname, hversion, hprocesses, hlabels, hannotations, hexposed, hhealthcheck,
    hdeclared⟩ := h
  cases kind <;> constructor <;> simp_all [withItems, Section.ofItems, Section.items]

/-- One more item out of scope does not concern a process. -/
theorem Unrelated.withItems {name : String} {version : Version} {item : MetadataItem}
    (hscope : ¬ item.InScope name version) (before after : List MetadataItem) :
    (app.withItems kind (before ++ after)).Unrelated name version
      (app.withItems kind (before ++ item :: after)) := by
  cases kind with
  | labels => exact .label before after item rfl hscope
  | annotations => exact Unrelated.annotation before after item rfl hscope

end App

namespace Config

open Kdl (Node Document Value)

/-! ### The place of an item -/

/-- The place of an item node in a document: it stands in the block of a section with labels or
annotations. -/
structure ItemPlace where
  before : Document
  listing : Node
  after : Document
  kind : MetadataKind
  isListing : SectionKind.ofName? listing.name = some (.ofItems kind)
  first : List Node
  item : Node
  last : List Node
  isItem : item.name = "item"
  block : listing.children = some (first ++ item :: last)

namespace ItemPlace

/-- The section without the item. -/
def emptied (place : ItemPlace) : Node :=
  { place.listing with children := some (place.first ++ place.last) }

/-- The document that the place is in. -/
def document (place : ItemPlace) : Document := place.before ++ place.listing :: place.after

/-- The document without the item. -/
def without (place : ItemPlace) : Document := place.before ++ place.emptied :: place.after

variable {place : ItemPlace} {standIn : String} {app : App}

/-- The items of a section are those in front of the item, the item itself, and those after it. -/
theorem readItems_split {items : List MetadataItem} (h : readItems place.listing = .ok items) :
    ∃ front item back, readItem place.item = .ok item ∧ items = front ++ item :: back ∧
      readItems place.emptied = .ok (front ++ back) := by
  have hnodes : place.listing.childNodes = place.first ++ place.item :: place.last := by
    rw [Node.childNodes, place.block, Option.getD_some]
  have hrest : place.emptied.childNodes = place.first ++ place.last := rfl
  rw [readItems, hnodes, List.filter_append, List.filter_cons_of_pos (by simp [place.isItem]),
    mapM_append_eq_ok_iff] at h
  obtain ⟨front, itemAndBack, hfront, h, rfl⟩ := h
  obtain ⟨item, back, hitem, hback, rfl⟩ := mapM_cons_eq_ok_iff.1 h
  refine ⟨front, item, back, hitem, rfl, ?_⟩
  rw [readItems, hrest, List.filter_append]
  exact mapM_append_eq_ok_iff.2 ⟨front, back, hfront, hback, rfl⟩

/-- A document without an item declares the same application but for the item. -/
theorem ofDocument_without (h : App.ofDocument standIn place.document = .ok app) :
    ∃ item app', readItem place.item = .ok item ∧
      App.ofDocument standIn place.without = .ok app' ∧ app'.version = app.version ∧
      ∀ name version, ¬ item.InScope name version → app'.Unrelated name version app := by
  obtain ⟨hsound, hcomposed⟩ := App.ofDocument_eq_ok_iff.1 h
  obtain ⟨items, hitems, hpart⟩ := exists_readItems h (by simp [document]) place.isListing
  obtain ⟨front, item, back, hitem, rfl, hrest⟩ := readItems_split hitems
  have hemptied : readSection place.emptied = .ok (.ofItems place.kind (front ++ back)) := by
    have hname : SectionKind.ofName? place.emptied.name = some (.ofItems place.kind) :=
      place.isListing
    rw [readSection_of_items hname, hrest]
    rfl
  have hsound' : Sound place.without :=
    hsound.exchange hpart hemptied (by cases place.kind <;> rfl)
  rw [document, sections_split hpart] at hcomposed
  have hreduced := hcomposed.exchange (front ++ back)
  rw [← sections_split hemptied] at hreduced
  refine ⟨item, _, hitem, App.ofDocument_eq_ok_iff.2 ⟨hsound', hreduced⟩, ?_, ?_⟩
  · cases place.kind <;> rfl
  · intro name version hscope
    -- In both applications the items of the other sections stand around those of this one.
    have hone : (app.withItems place.kind _).Unrelated name version _ :=
      App.Unrelated.withItems hscope
        ((sections place.before).flatMap (Section.items place.kind) ++ front)
        (back ++ (sections place.after).flatMap (Section.items place.kind))
    have hall : app.items place.kind
        = ((sections place.before).flatMap (Section.items place.kind) ++ front) ++
          item :: (back ++ (sections place.after).flatMap (Section.items place.kind)) := by
      simp [hcomposed.items]
    rw [← hall, App.withItems_items] at hone
    simpa using hone

end ItemPlace

/-! ### What an item is read as -/

variable {node : Node} {item : MetadataItem}

theorem process_of_readItem (h : readItem node = .ok item) :
    item.process = node.propertyText? "process" := by
  obtain ⟨target, -, h⟩ := bind_eq_ok_iff.1 h
  obtain ⟨version, -, h⟩ := bind_eq_ok_iff.1 h
  exact Except.ok.inj h ▸ rfl

/-- An item has the entries of the nodes in its block. -/
theorem entries_of_readItem (h : readItem node = .ok item) :
    item.entries = .ofList (node.childNodes.map itemEntry) := by
  obtain ⟨target, -, h⟩ := bind_eq_ok_iff.1 h
  obtain ⟨version, -, h⟩ := bind_eq_ok_iff.1 h
  exact Except.ok.inj h ▸ rfl

/-- An item with a string for its process is out of scope for every other process. -/
theorem not_inScope_of_process {process name : String} (h : readItem node = .ok item)
    (hproperty : node.property? "process" = some (.text process)) (hprocess : process ≠ "")
    (hname : process ≠ name) (version : Version) : ¬ item.InScope name version := by
  have hitem : item.process = some process := by
    rw [process_of_readItem h, Node.propertyText?, hproperty]
    rfl
  rintro ⟨-, hnone | hempty | hsame⟩
  · cases hitem.symm.trans hnone
  · exact hprocess (Option.some.inj (hitem.symm.trans hempty))
  · exact hname (Option.some.inj (hitem.symm.trans hsame))

/-- Without an item for one process, every other process is built as before. -/
theorem ItemPlace.buildProcess_without {place : ItemPlace} {standIn process name : String}
    {app : App} (happ : App.ofDocument standIn place.document = .ok app)
    (hproperty : place.item.property? "process" = some (.text process)) (hprocess : process ≠ "")
    (hname : process ≠ name) (version : Option Version) :
    ∃ app', App.ofDocument standIn place.without = .ok app' ∧
      app'.buildProcess name version = app.buildProcess name version := by
  obtain ⟨item, app', hitem, happ', hversion, hunrelated⟩ := ofDocument_without happ
  have hscope := not_inScope_of_process hitem hproperty hprocess hname
    (version.getD app'.version)
  have hagrees : App.AgreesOn name (version.getD app'.version) app app' :=
    (hunrelated name _ hscope).agreesOn
  exact ⟨app', happ', (App.buildProcess_eq_of_agreesOn (by rw [hversion]) rfl hagrees).symm⟩

/-! ### A property that is no string -/

/-- An item node with any value for its process. -/
def strayItem (value : Value) : Node where
  name := "item"
  entries := [⟨some "target", .text "pod"⟩, ⟨some "process", value⟩]
  children := some [⟨"tier", [⟨none, .text "a"⟩], none⟩]

/-- A document with that item as its only label, and a process. -/
def strayPlace (value : Value) : ItemPlace where
  before := []
  listing := ⟨"labels", [], some [strayItem value]⟩
  after := [⟨"process", [⟨none, .text "web"⟩], none⟩]
  kind := .labels
  isListing := rfl
  first := []
  item := strayItem value
  last := []
  isItem := rfl
  block := rfl

/-- The application of the document without the item. -/
def bareApp : App := { App.blank "shop" with processes := [.blank "web" false] }

theorem ofDocument_without_stray (value : Value) :
    App.ofDocument "shop" (strayPlace value).without = .ok bareApp := rfl

/-- The application of the document with an item whose process is a certain name or none. -/
def strayApp (process : Option String) : App :=
  { bareApp with labels := [⟨.pod, process, none, .ofList [("tier", "a")]⟩] }

/-- A value that is no string is read as if the property were not there. -/
theorem ofDocument_stray (value : Value) :
    App.ofDocument "shop" (strayPlace value).document = .ok (strayApp value.text?) := by
  cases value <;> rfl

/-- The label of an item for no process shows in every process. -/
theorem buildProcess_strayApp_none :
    bareApp.buildProcess "web" none ≠ (strayApp none).buildProcess "web" none := by
  decide +kernel

/-- **Items for one process.** The property keeps an item from all processes but the one that it
names, in every document that declares an application, exactly if its value is a string. -/
theorem item_restricted_iff (value : Value) (hvalue : value ≠ .text "") :
    (∀ (place : ItemPlace) (standIn name : String) (app : App) (version : Option Version),
      place.item.property? "process" = some value → value ≠ .text name →
        App.ofDocument standIn place.document = .ok app →
          ∃ app', App.ofDocument standIn place.without = .ok app' ∧
            app'.buildProcess name version = app.buildProcess name version) ↔
      ∃ process, value = .text process := by
  constructor
  · intro h
    by_contra hother
    have hnone : value.text? = none := by
      cases value with
      | text process => exact absurd ⟨process, rfl⟩ hother
      | _ => rfl
    have happ : App.ofDocument "shop" (strayPlace value).document = .ok (strayApp none) :=
      hnone ▸ ofDocument_stray value
    obtain ⟨app', happ', hbuild⟩ := h (strayPlace value) "shop" "web" (strayApp none) none rfl
      (fun heq => hother ⟨"web", heq⟩) happ
    cases (ofDocument_without_stray value).symm.trans happ'
    exact buildProcess_strayApp_none hbuild
  · rintro ⟨process, rfl⟩ place standIn name app version hproperty hname happ
    have hprocess : process ≠ "" := fun heq => hvalue (congrArg Value.text heq)
    exact place.buildProcess_without happ hproperty hprocess
      (fun heq => hname (congrArg Value.text heq)) version

/-- An item for the process `worker` does not show in the process `web`. -/
theorem item_restricted_worker :
    Value.text "worker" ≠ .text "" ∧
    ∃ app', App.ofDocument "shop" (strayPlace (.text "worker")).without = .ok app' ∧
      app'.buildProcess "web" (some 3)
        = (strayApp (some "worker")).buildProcess "web" (some 3) := by
  have hvalue : Value.text "worker" ≠ .text "" := by decide
  exact ⟨hvalue, (item_restricted_iff (.text "worker") hvalue).2 ⟨"worker", rfl⟩ (strayPlace _)
    "shop" "web" _ (some 3) rfl (by decide) (ofDocument_stray _)⟩

/-- An item whose process is the number 5 shows in the process `web`, though the number is no
string and so not the name of that process. -/
theorem numbered_item_shows :
    (strayPlace (.int 5)).item.property? "process" = some (.int 5) ∧
    Value.int 5 ≠ .text "" ∧ Value.int 5 ≠ .text "web" ∧
    App.ofDocument "shop" (strayPlace (.int 5)).document = .ok (strayApp none) ∧
    ¬ ∃ app', App.ofDocument "shop" (strayPlace (.int 5)).without = .ok app' ∧
      app'.buildProcess "web" none = (strayApp none).buildProcess "web" none := by
  refine ⟨rfl, by decide, by decide, ofDocument_stray (.int 5), ?_⟩
  rintro ⟨app', happ', hbuild⟩
  cases (ofDocument_without_stray (.int 5)).symm.trans happ'
  exact buildProcess_strayApp_none hbuild

end Config

end ProcessPlan
