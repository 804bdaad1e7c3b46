import ProcessPlan.Config.Sections
import ProcessPlan.Proofs.Config.Specs

/-!
# Where the content of a volume comes from

A volume node can say in four ways where its content comes from, each under a property of its own.
The properties are looked at in a fixed order, and the first that is a string decides. All others
are passed over without a fault, and so is a property of another type. So a volume is what its node
says exactly if the node has at most one of the four properties and that one is a string. A node
that says more, or says it wrongly, is read as another volume; without any string, as an empty one.

## Main definitions

* `Config.SourceKind`: the four kinds of source that a node can name
* `Config.SourceOf`: the source that is read
* `Config.KeepsSource`: a source is all that a node says about it
* `Config.OneSource`: the nodes that name one source at most, and name it by a string

## Main results

* `Config.sourceOf_volumeSource`, `Config.SourceOf.eq_volumeSource`: the source of a node
* `Config.volume_kept_iff`: a volume keeps its source exactly if its node names one at most
-/

namespace ProcessPlan

namespace Config

open Kdl (Node Value Entry)

/-! ### Kinds of source -/

/-- The kinds of source that a volume node can name. -/
inductive SourceKind where
  | persistentVolumeClaim
  | configMap
  | secret
  | hostPath
deriving DecidableEq

namespace SourceKind

/-- The property that names a source of a kind. -/
def property : SourceKind → String
  | persistentVolumeClaim => "pvc"
  | configMap => "config-map"
  | secret => "secret"
  | hostPath => "host-path"

/-- The source of a kind with a name, or with a path. -/
def source : SourceKind → String → VolumeSource
  | persistentVolumeClaim => .persistentVolumeClaim
  | configMap => .configMap
  | secret => .secret
  | hostPath => .hostPath

/-- The kinds in the order in which they are looked at. -/
def inOrder : List SourceKind := [persistentVolumeClaim, configMap, secret, hostPath]

theorem mem_inOrder (kind : SourceKind) : kind ∈ inOrder := by cases kind <;> decide

theorem source_ne_emptyDir (kind : SourceKind) (text : String) : kind.source text ≠ .emptyDir := by
  cases kind <;> exact nofun

end SourceKind

variable {node : Node} {source : VolumeSource}

/-- The source of a kind that a node names by a string. -/
def named? (node : Node) (kind : SourceKind) : Option VolumeSource :=
  (node.propertyText? kind.property).map kind.source

theorem volumeSource_eq (node : Node) :
    volumeSource node = (SourceKind.inOrder.findSome? (named? node)).getD .emptyDir := by
  rfl

theorem named?_eq_some_iff {kind : SourceKind} : named? node kind = some source ↔
    ∃ text, node.property? kind.property = some (.text text) ∧ source = kind.source text := by
  have htext (text : String) : node.propertyText? kind.property = some text ↔
      node.property? kind.property = some (.text text) := by
    rw [Node.propertyText?]
    cases node.property? kind.property with
    | none => simp
    | some value => cases value <;> simp [Value.text?]
  rw [named?, Option.map_eq_some_iff]
  simp only [htext, eq_comm]

/-! ### The source that is read -/

/-- The source that a node is read with: the first that it names by a string, or the empty one. -/
inductive SourceOf (node : Node) : VolumeSource → Prop where
  | given {before after : List SourceKind} {kind : SourceKind} {text : String}
      (order : SourceKind.inOrder = before ++ kind :: after)
      (value : node.property? kind.property = some (.text text))
      (first : ∀ earlier ∈ before, ∀ text, node.property? earlier.property ≠ some (.text text)) :
    SourceOf node (kind.source text)
  | empty (absent : ∀ (kind : SourceKind) text, node.property? kind.property ≠ some (.text text)) :
    SourceOf node .emptyDir

theorem named?_eq_none_iff {kind : SourceKind} : named? node kind = none ↔
    ∀ text, node.property? kind.property ≠ some (.text text) := by
  rw [Option.eq_none_iff_forall_ne_some]
  simp only [ne_eq, named?_eq_some_iff, not_exists, not_and]
  constructor
  · intro h text hvalue
    exact h _ text hvalue rfl
  · intro h source text hvalue
    exact absurd hvalue (h text)

theorem sourceOf_volumeSource (node : Node) : SourceOf node (volumeSource node) := by
  rw [volumeSource_eq]
  cases hfirst : SourceKind.inOrder.findSome? (named? node) with
  | none =>
    refine .empty fun kind => named?_eq_none_iff.1 ?_
    exact List.findSome?_eq_none_iff.1 hfirst kind kind.mem_inOrder
  | some source =>
    obtain ⟨before, kind, after, horder, hnamed, hbefore⟩ := List.findSome?_eq_some_iff.1 hfirst
    obtain ⟨text, hvalue, rfl⟩ := named?_eq_some_iff.1 hnamed
    exact .given horder hvalue fun earlier hearlier =>
      named?_eq_none_iff.1 (hbefore earlier hearlier)

/-- A node is read with one source. -/
theorem SourceOf.eq_volumeSource (h : SourceOf node source) : source = volumeSource node := by
  rw [volumeSource_eq]
  cases h with
  | given horder hvalue hfirst =>
    have hnamed : SourceKind.inOrder.findSome? (named? node) = some _ :=
      List.findSome?_eq_some_iff.2 ⟨_, _, _, horder, named?_eq_some_iff.2 ⟨_, hvalue, rfl⟩,
        fun earlier hearlier => named?_eq_none_iff.2 (hfirst earlier hearlier)⟩
    rw [hnamed, Option.getD_some]
  | empty habsent =>
    have hnone : SourceKind.inOrder.findSome? (named? node) = none :=
      List.findSome?_eq_none_iff.2 fun kind _ => named?_eq_none_iff.2 (habsent kind)
    rw [hnone, Option.getD_none]

/-! ### What a node says -/

/-- A source is all that a node says: the node names one at most, the source is the one that it
names, and it is empty only if the node names none. -/
structure KeepsSource (node : Node) (source : VolumeSource) : Prop where
  single : ∀ kind kind' : SourceKind, node.property? kind.property ≠ none →
    node.property? kind'.property ≠ none → kind = kind'
  kept : ∀ (kind : SourceKind) value, node.property? kind.property = some value →
    ∃ text, value = .text text ∧ source = kind.source text
  empty : source = .emptyDir → ∀ kind : SourceKind, node.property? kind.property = none

/-- A node that names one source at most, and names it by a string. -/
inductive OneSource (node : Node) : Prop where
  | one {kind : SourceKind} {text : String}
      (value : node.property? kind.property = some (.text text))
      (others : ∀ other : SourceKind, other ≠ kind → node.property? other.property = none)
  | none (absent : ∀ kind : SourceKind, node.property? kind.property = .none)

/-- The source of a node that names one alone is that one. -/
theorem SourceOf.eq_of_one (h : SourceOf node source) {kind : SourceKind} {text : String}
    (hvalue : node.property? kind.property = some (.text text))
    (hothers : ∀ other : SourceKind, other ≠ kind → node.property? other.property = none) :
    source = kind.source text := by
  cases h with
  | @given _ _ kind' text' _ hvalue' _ =>
    by_cases hkind : kind' = kind
    · subst hkind
      cases hvalue.symm.trans hvalue'
      rfl
    · cases (hothers kind' hkind).symm.trans hvalue'
  | empty habsent => exact absurd hvalue (habsent kind text)

/-- The source that is read is all that a node says exactly if it names one at most. -/
theorem keepsSource_volumeSource_iff : KeepsSource node (volumeSource node) ↔ OneSource node := by
  constructor
  · intro h
    by_cases hnone : ∀ kind : SourceKind, node.property? kind.property = none
    · exact .none hnone
    · push Not at hnone
      obtain ⟨kind, hkind⟩ := hnone
      obtain ⟨value, hvalue⟩ := Option.ne_none_iff_exists'.1 hkind
      obtain ⟨text, rfl, -⟩ := h.kept kind value hvalue
      refine .one hvalue fun other hother => ?_
      by_contra hpresent
      exact hother (h.single other kind hpresent hkind)
  · rintro (@⟨kind, text, hvalue, hothers⟩ | habsent)
    · have hsource : volumeSource node = kind.source text :=
        (sourceOf_volumeSource node).eq_of_one hvalue hothers
      have honly {other : SourceKind} (h : node.property? other.property ≠ none) :
          other = kind := by
        by_contra hne
        exact h (hothers other hne)
      refine ⟨fun first second hfirst hsecond => ?_, fun other value hother => ?_, fun hempty => ?_⟩
      · rw [honly hfirst, honly hsecond]
      · obtain rfl : other = kind := honly (by rw [hother]; exact nofun)
        exact ⟨text, Option.some.inj (hother.symm.trans hvalue), hsource⟩
      · exact absurd (hsource.symm.trans hempty) (kind.source_ne_emptyDir text)
    · refine ⟨fun kind _ hkind => absurd (habsent kind) hkind, fun kind value hvalue => ?_,
        fun _ => habsent⟩
      cases (habsent kind).symm.trans hvalue

/-- **Where the content of a volume comes from.** A volume can be read from every node with a name,
whatever it says about its source. The source is the first that it names by a string, or the empty
one. It is all that the node says exactly if the node names one source at most, by a string. -/
theorem volume_kept_iff (node : Node) :
    ((∃ v, readVolume node = .ok v) ↔ ∃ name, node.argumentText? = some name) ∧
    ∀ v, readVolume node = .ok v →
      SourceOf node v.source ∧ (∀ other, SourceOf node other → other = v.source) ∧
      (KeepsSource node v.source ↔ OneSource node) := by
  constructor
  · simp only [readVolume, map_eq_ok_iff, readName_eq_ok_iff]
    constructor
    · rintro ⟨v, name, hname, -⟩
      exact ⟨name, hname⟩
    · rintro ⟨name, hname⟩
      exact ⟨_, name, hname, rfl⟩
  · intro v h
    obtain ⟨name, -, rfl⟩ := map_eq_ok_iff.1 h
    exact ⟨sourceOf_volumeSource node, fun other hother => hother.eq_volumeSource,
      keepsSource_volumeSource_iff⟩

/-- A volume node with properties. -/
def volumeNode (properties : List (String × Value)) : Node where
  name := "volume"
  entries := ⟨none, .text "data"⟩ :: properties.map fun p => ⟨some p.1, p.2⟩
  children := none

/-- A claim that is named by a string is kept. -/
theorem claim_kept :
    readVolume (volumeNode [("pvc", .text "data-claim")])
      = .ok ⟨"data", .persistentVolumeClaim "data-claim"⟩ ∧
    KeepsSource (volumeNode [("pvc", .text "data-claim")])
      (.persistentVolumeClaim "data-claim") := by
  have hread : readVolume (volumeNode [("pvc", .text "data-claim")])
      = .ok ⟨"data", .persistentVolumeClaim "data-claim"⟩ := rfl
  obtain ⟨-, hvolume⟩ := volume_kept_iff (volumeNode [("pvc", .text "data-claim")])
  obtain ⟨-, -, hkept⟩ := hvolume _ hread
  refine ⟨hread, hkept.2 (@OneSource.one _ .persistentVolumeClaim _ rfl fun other hother => ?_)⟩
  cases other <;> first | rfl | exact absurd rfl hother

/-- A process node with a volume. -/
def mounted (volume : Node) : Node := ⟨"process", [⟨none, .text "web"⟩], some [volume]⟩

/-- Its application, with the source of the volume. -/
def mountedApp (source : VolumeSource) : App :=
  { App.blank "shop" with
    processes := [{ ProcessSpec.blank "web" false with volumes := [⟨"data", source⟩] }] }

/-- A claim that is named by the number 5 is read as an empty volume, and of a claim and a secret
the secret is passed over. Both documents declare an application. -/
theorem claim_lost :
    (App.ofDocument "shop" [mounted (volumeNode [("pvc", .int 5)])] = .ok (mountedApp .emptyDir) ∧
      ¬ KeepsSource (volumeNode [("pvc", .int 5)]) .emptyDir) ∧
    App.ofDocument "shop" [mounted (volumeNode [("pvc", .text "a"), ("secret", .text "b")])]
        = .ok (mountedApp (.persistentVolumeClaim "a")) ∧
      ¬ KeepsSource (volumeNode [("pvc", .text "a"), ("secret", .text "b")])
        (.persistentVolumeClaim "a") := by
  refine ⟨⟨rfl, fun hkept => ?_⟩, rfl, fun hkept => ?_⟩
  · cases hkept.empty rfl .persistentVolumeClaim
  · cases hkept.single .persistentVolumeClaim .secret nofun nofun

end Config

end ProcessPlan
