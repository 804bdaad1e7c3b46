import Mathlib.Data.List.Forall2
import ProcessPlan.Data.Fields
import ProcessPlan.Proofs.Table

/-!
# JSON values

A tree of data is turned into a JSON value, whose objects are maps: the fields of a record may come
back in any order, but there is one for each key, so no key may stand in a record twice. A reader
gets a value back if it reads it from every JSON value of the tree that was written.

## Main definitions

* `Data.IsJsonOf`: a JSON value is that of a tree
* `Data.DistinctKeys`: no record of a tree has two fields with one key
* `Data.SameFields`: the fields of an object are those of a record
* `Data.Reads`: a reader reads a value from every JSON value of a tree

## Main results

* `Data.DistinctKeys.isJsonOf_plain`: the plain tree is a JSON value of a tree with distinct keys
* `Data.SameFields.required`, `Data.SameFields.settable`, `Data.SameFields.standard`: what is read
  from a field of an object
-/

namespace ProcessPlan.Data

variable {α β : Type} {tree value : Data}

/-! ### The JSON values of a tree -/

/-- A JSON value is that of a tree. Its objects have the fields of the records in any order, each
key once, and a variant is an object with one field. -/
inductive IsJsonOf : Data → Data → Prop
  | null : IsJsonOf null null
  | bool (b : Bool) : IsJsonOf (bool b) (bool b)
  | int (n : Int) : IsJsonOf (int n) (int n)
  | real (x : Binary64) : IsJsonOf (real x) (real x)
  | text (s : String) : IsJsonOf (text s) (text s)
  | list {items items' : List Data} (h : List.Forall₂ IsJsonOf items items') :
    IsJsonOf (list items) (list items')
  | record {fields fields' : List (String × Data)}
    (hkeys : (fields.map (·.1)).Perm (fields'.map (·.1))) (hnodup : (fields.map (·.1)).Nodup)
    (h : ∀ key d d', (key, d) ∈ fields → (key, d') ∈ fields' → IsJsonOf d d') :
    IsJsonOf (record fields) (record fields')
  | variant {name : String} {payload payload' : Data} (h : IsJsonOf payload payload') :
    IsJsonOf (record [(name, payload)]) (variant name payload')

/-- No record of a tree has two fields with one key. -/
inductive DistinctKeys : Data → Prop
  | null : DistinctKeys null
  | bool (b : Bool) : DistinctKeys (bool b)
  | int (n : Int) : DistinctKeys (int n)
  | real (x : Binary64) : DistinctKeys (real x)
  | text (s : String) : DistinctKeys (text s)
  | list {items : List Data} (h : ∀ item ∈ items, DistinctKeys item) : DistinctKeys (list items)
  | record {fields : List (String × Data)} (hnodup : (fields.map (·.1)).Nodup)
    (h : ∀ field ∈ fields, DistinctKeys field.2) : DistinctKeys (record fields)
  | variant {name : String} {payload : Data} (h : DistinctKeys payload) :
    DistinctKeys (variant name payload)

theorem DistinctKeys.plain (h : tree.DistinctKeys) : tree.plain.DistinctKeys := by
  induction h with
  | null => exact .null
  | bool b => exact .bool b
  | int n => exact .int n
  | real x => exact .real x
  | text s => exact .text s
  | list h ih => exact .list (by simpa using ih)
  | record hnodup h ih =>
    refine .record (by simpa [List.map_map, Function.comp_def] using hnodup) ?_
    rw [plainFields_eq_map, List.forall_mem_map]
    exact ih
  | variant h ih => exact .record (by simp) (by simpa using ih)

/-- Fields with one key are one field, if the keys are distinct. -/
theorem eq_of_mem_of_nodup {fields : List (String × Data)} (hnodup : (fields.map (·.1)).Nodup)
    {key : String} {d d' : Data} (h : (key, d) ∈ fields) (h' : (key, d') ∈ fields) : d = d' :=
  congrArg Prod.snd (List.inj_on_of_nodup_map hnodup h h' rfl)

/-- A tree whose keys are distinct has a JSON value, its plain tree. -/
theorem DistinctKeys.isJsonOf_plain (h : tree.DistinctKeys) : tree.plain.IsJsonOf tree := by
  induction h with
  | null => exact .null
  | bool b => exact .bool b
  | int n => exact .int n
  | real x => exact .real x
  | text s => exact .text s
  | @list items h ih =>
    rw [Data.plain, plainItems_eq_map]
    exact .list (List.forall₂_map_left_iff.2 (List.forall₂_same.2 ih))
  | @record fields hnodup h ih =>
    rw [Data.plain, plainFields_eq_map]
    have hkeys : (fields.map fun field => (field.1, field.2.plain)).map (·.1)
        = fields.map (·.1) := by
      rw [List.map_map]
      rfl
    refine .record (.of_eq hkeys) (hkeys ▸ hnodup) fun key d d' hmem hmem' => ?_
    obtain ⟨field, hfield, heq⟩ := List.mem_map.1 hmem
    obtain ⟨rfl, rfl⟩ := Prod.mk.inj heq
    obtain rfl := eq_of_mem_of_nodup hnodup hfield hmem'
    exact ih field hfield
  | variant h ih => exact .variant ih

/-! ### Objects and records -/

/-- The fields of an object are those of a record in some order, each key once. -/
structure SameFields (fields fields' : List (String × Data)) : Prop where
  keys : (fields.map (·.1)).Perm (fields'.map (·.1))
  nodup : (fields.map (·.1)).Nodup
  values : ∀ key d d', (key, d) ∈ fields → (key, d') ∈ fields' → d.IsJsonOf d'

theorem IsJsonOf.exists_fields {fields' : List (String × Data)}
    (h : value.IsJsonOf (Data.record fields')) :
    ∃ fields, value = Data.record fields ∧ SameFields fields fields' := by
  cases h with
  | record hkeys hnodup h => exact ⟨_, rfl, hkeys, hnodup, h⟩

private theorem lookup_eq_none_iff_not_mem {fields : List (String × Data)} {key : String} :
    fields.lookup key = none ↔ key ∉ fields.map (·.1) := by
  simp only [List.lookup_eq_none_iff, bne_iff_ne, List.mem_map, not_exists, not_and]
  exact ⟨fun h field hmem heq => h field hmem heq.symm,
    fun h field hmem heq => h field hmem heq.symm⟩

private theorem mem_of_lookup {fields : List (String × Data)} {key : String} {d : Data}
    (h : fields.lookup key = some d) : (key, d) ∈ fields := by
  obtain ⟨before, after, rfl, -⟩ := List.lookup_eq_some_iff.1 h
  exact List.mem_append_right _ List.mem_cons_self

namespace SameFields

variable {fields fields' : List (String × Data)} {key : String} {d : Data}

/-- A field that a record does not have is not in the object. -/
theorem lookup_eq_none (h : SameFields fields fields') (hlookup : fields'.lookup key = none) :
    fields.lookup key = none := by
  rw [lookup_eq_none_iff_not_mem] at hlookup ⊢
  exact fun hmem => hlookup (h.keys.mem_iff.1 hmem)

/-- A field of a record is in the object, with the JSON value of what the record has there. -/
theorem exists_lookup (h : SameFields fields fields') (hlookup : fields'.lookup key = some d) :
    ∃ value, fields.lookup key = some value ∧ value.IsJsonOf d := by
  have hmem : (key, d) ∈ fields' := mem_of_lookup hlookup
  cases hvalue : fields.lookup key with
  | none =>
    have hkey : key ∈ fields.map (·.1) := h.keys.mem_iff.2 (List.mem_map_of_mem hmem)
    exact absurd hkey (lookup_eq_none_iff_not_mem.1 hvalue)
  | some value => exact ⟨value, rfl, h.values key value d (mem_of_lookup hvalue) hmem⟩

theorem isSome_lookup (h : SameFields fields fields') (key : String) :
    (fields.lookup key).isSome = (fields'.lookup key).isSome := by
  cases hlookup : fields'.lookup key with
  | none => rw [h.lookup_eq_none hlookup]
  | some d =>
    obtain ⟨value, hvalue, -⟩ := h.exists_lookup hlookup
    rw [hvalue]
    rfl

end SameFields

/-! ### Reading from JSON values -/

/-- A reader reads a value from every JSON value of a tree. -/
def Reads (read : Data → Option α) (tree : Data) (a : α) : Prop :=
  ∀ value, value.IsJsonOf tree → read value = some a

theorem reads_text (s : String) : Reads text? (text s) s := by
  rintro _ ⟨⟩
  rfl

theorem reads_bool (b : Bool) : Reads bool? (bool b) b := by
  rintro _ ⟨⟩
  rfl

theorem reads_word16 (n : UInt16) : Reads word16? (word16 n) n := by
  rintro _ ⟨⟩
  exact Range.word16?_eq_some_iff.2 rfl

theorem reads_word32 (n : UInt32) : Reads word32? (word32 n) n := by
  rintro _ ⟨⟩
  exact Range.word32?_eq_some_iff.2 rfl

theorem reads_signed64 (n : Int64) : Reads signed64? (signed64 n) n := by
  rintro _ ⟨⟩
  exact Range.signed64?_eq_some_iff.2 rfl

/-- A list is read item by item. -/
theorem reads_list {write : α → Data} {read : Data → Option α} (h : ∀ a, Reads read (write a) a)
    (as : List α) : Reads (list? read) (list (as.map write)) as := by
  rintro _ ⟨⟩
  rename_i items hitems
  show items.mapM read = some as
  induction as generalizing items with
  | nil =>
    cases hitems
    rfl
  | cons a rest ih =>
    cases hitems with
    | cons hitem hrest => simp [h a _ hitem, ih hrest]

theorem reads_texts (as : List String) : Reads (list? text?) (texts as) as :=
  reads_list reads_text as

private theorem mapM_eq_some_filterMap {f : α → Option β} {as : List α}
    (h : ∀ a ∈ as, (f a).isSome) : as.mapM f = some (as.filterMap f) := by
  induction as with
  | nil => rfl
  | cons a rest ih =>
    obtain ⟨b, hb⟩ := Option.isSome_iff_exists.1 (h a List.mem_cons_self)
    have hrest := ih fun a hmem => h a (List.mem_cons_of_mem _ hmem)
    simp [hb, hrest]

/-- A table is read from its entries in any order. -/
theorem reads_table (t : Table String) : Reads table? (table t) t := by
  intro value h
  obtain ⟨fields, rfl, hfields⟩ := h.exists_fields
  -- Texts have one JSON value, so the fields of the object are those of the record.
  have hsubset : fields ⊆ t.entries.map fun entry => (entry.1, text entry.2) := by
    rintro ⟨key, d⟩ hmem
    have hkey := hfields.keys.mem_iff.1 (List.mem_map_of_mem hmem)
    obtain ⟨field, hfield, rfl⟩ := List.mem_map.1 hkey
    obtain ⟨entry, hentry, rfl⟩ := List.mem_map.1 hfield
    cases hfields.values _ _ _ hmem hfield
    exact hfield
  have hlength : (t.entries.map fun entry => (entry.1, text entry.2)).length ≤ fields.length := by
    simpa using hfields.keys.length_eq.ge
  have hperm : fields.Perm (t.entries.map fun entry => (entry.1, text entry.2)) :=
    (List.subperm_of_subset (.of_map _ hfields.nodup) hsubset).perm_of_length_le hlength
  have hread : ∀ field ∈ fields, ((text? field.2).map (field.1, ·)).isSome := by
    intro field hmem
    obtain ⟨entry, -, rfl⟩ := List.mem_map.1 (hsubset hmem)
    rfl
  have hentries := hperm.filterMap fun field => (text? field.2).map (field.1, ·)
  rw [List.filterMap_map] at hentries
  rw [table?, mapM_eq_some_filterMap hread, Option.map_some, Table.ofList_of_perm (t := t)]
  simpa [Function.comp_def, text?] using hentries

/-! ### Reading fields -/

namespace SameFields

variable {fields fields' : List (String × Data)} {key : String} {d : Data} {a : α}
  {read : Data → Option α} {write : α → Data}

theorem required (h : SameFields fields fields') (hlookup : fields'.lookup key = some d)
    (hread : Reads read d a) : Data.required fields key read = some a := by
  obtain ⟨value, hvalue, hjson⟩ := h.exists_lookup hlookup
  rw [Data.required, hvalue]
  exact hread value hjson

/-- A field that is left out if it is not set is read back. -/
theorem settable (h : SameFields fields fields') {set : Option α}
    (hlookup : fields'.lookup key = set.map write) (hread : ∀ a, Reads read (write a) a)
    (hnull : read .null = none) : Data.settable fields key read = some set := by
  cases set with
  | none => rw [Data.settable, h.lookup_eq_none hlookup]
  | some a =>
    obtain ⟨value, hvalue, hjson⟩ := h.exists_lookup hlookup
    have hsome := hread a value hjson
    have hset : value ≠ .null := by
      rintro rfl
      cases hnull.symm.trans hsome
    rw [Data.settable, hvalue]
    simp [hsome]

/-- A field that is left out if it has its standard value is read back. -/
theorem standard (h : SameFields fields fields') {normal : α}
    (hread : ∀ d, fields'.lookup key = some d → Reads read d a)
    (hnormal : fields'.lookup key = none → a = normal) :
    Data.standard fields key read normal = some a := by
  cases hlookup : fields'.lookup key with
  | none => rw [Data.standard, h.lookup_eq_none hlookup, hnormal hlookup]
  | some d =>
    obtain ⟨value, hvalue, hjson⟩ := h.exists_lookup hlookup
    rw [Data.standard, hvalue]
    exact hread d hlookup value hjson

/-- The alternative whose name is the key of a field is read. -/
theorem alternative {alternatives : List (String × (Data → Option α))}
    (h : SameFields fields fields') (key : String)
    (hfind : alternatives.find? (fun alternative => (fields'.lookup alternative.1).isSome)
      = some (key, read))
    (hlookup : fields'.lookup key = some d) (hread : Reads read d a) :
    alternative? fields alternatives = some a := by
  simp only [alternative?, h.isSome_lookup, hfind]
  exact h.required hlookup hread

end SameFields

end ProcessPlan.Data
