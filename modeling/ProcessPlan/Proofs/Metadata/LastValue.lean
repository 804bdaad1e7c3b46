import ProcessPlan.Proofs.Metadata.Merge
import ProcessPlan.Proofs.Table

/-!
# The value that items give a key

Items in scope are merged in order, each into the maps of its target, so in the end a key has the
value of the last item in scope that sets it there. A key that no such item sets keeps what it had.

## Main definitions

* `MetadataItem.valueFor?`: what one item gives a key of a target
* `MetadataItem.lastValue?`: what a list of items gives it

## Main results

* `MetadataItem.lastValue?_eq_some_iff`: it is given by an item that no later one overrides
* `Descriptor.find?_applyItems`: what a look-up finds after all items are merged
-/

namespace ProcessPlan

/-! ### Tables -/

namespace Table

variable {α : Type}

/-- Inserting all entries of a table puts what it holds before what was there. -/
theorem find?_insertAll_entries (t u : Table α) (key : String) :
    (t.insertAll u.entries).find? key = (u.find? key).or (t.find? key) := by
  have hown : u.find? key = (u.entries.findRev? (·.1 = key)).map (·.2) := by
    rw [← Option.or_none (o := (u.entries.findRev? _).map _), ← find?_empty (α := α) key,
      ← find?_insertAll]
    exact congrArg (·.find? key) (ofList_of_perm (.refl u.entries)).symm
  rw [find?_insertAll, hown]

end Table

/-! ### Items -/

namespace MetadataItem

variable {process : String} {version : Version} {target : Target} {key value : String}
  {items : List MetadataItem}

/-- The value that an item gives a key of a target for a process at a version, if the item is in
scope, of the target, and sets the key. -/
def valueFor? (process : String) (version : Version) (target : Target) (key : String)
    (item : MetadataItem) : Option String :=
  if item.InScope process version ∧ item.target = target then item.entries.find? key else none

/-- The value that the last item to give any gives a key of a target. -/
def lastValue? (process : String) (version : Version) (target : Target) (key : String)
    (items : List MetadataItem) : Option String :=
  items.reverse.findSome? (valueFor? process version target key)

theorem valueFor?_eq_some_iff {item : MetadataItem} :
    item.valueFor? process version target key = some value ↔
      item.InScope process version ∧ item.target = target ∧
        item.entries.find? key = some value := by
  simp [valueFor?, and_assoc]

theorem valueFor?_eq_none_iff {item : MetadataItem} :
    item.valueFor? process version target key = none ↔
      (item.InScope process version → item.target = target → item.entries.find? key = none) := by
  simp [valueFor?]

@[simp] theorem lastValue?_cons (item : MetadataItem) (rest : List MetadataItem) :
    lastValue? process version target key (item :: rest)
      = (lastValue? process version target key rest).or
        (item.valueFor? process version target key) := by
  simp [lastValue?, List.findSome?_append]

/-- A key has the value that an item gives it and no later item overrides. -/
theorem lastValue?_eq_some_iff : lastValue? process version target key items = some value ↔
    ∃ before item after, items = before ++ item :: after ∧
      item.valueFor? process version target key = some value ∧
      ∀ later ∈ after, later.valueFor? process version target key = none := by
  rw [lastValue?, List.findSome?_eq_some_iff]
  constructor
  · rintro ⟨after, item, before, hsplit, hvalue, hlater⟩
    refine ⟨before.reverse, item, after.reverse, ?_, hvalue, by simpa using hlater⟩
    simpa using congrArg List.reverse hsplit
  · rintro ⟨before, item, after, rfl, hvalue, hlater⟩
    exact ⟨after.reverse, item, before.reverse, by simp, hvalue, by simpa using hlater⟩

end MetadataItem

/-! ### Descriptors -/

namespace Descriptor

variable {d : Descriptor} {kind : MetadataKind} {version : Version} {target : Target}
  {key : String}

/-- Merging an item changes what it sets, in the map of its target and of the kind. -/
theorem find?_merge (d : Descriptor) (kind : MetadataKind) (item : MetadataItem)
    (target : Target) (kind' : MetadataKind) (key : String) :
    (((d.merge kind item).metadata target).get kind').find? key
      = if item.target = target ∧ kind' = kind then
          (item.entries.find? key).or (((d.metadata target).get kind').find? key)
        else ((d.metadata target).get kind').find? key := by
  by_cases htarget : item.target = target
  · subst htarget
    rw [merge, metadata_setMetadata_self]
    by_cases hkind : kind' = kind
    · subst hkind
      rw [if_pos ⟨rfl, rfl⟩, MetadataMaps.get_set_self, Table.find?_insertAll_entries]
    · rw [if_neg (fun h => hkind h.2), MetadataMaps.get_set_of_ne _ _ hkind]
  · rw [if_neg (fun h => htarget h.1), merge, metadata_setMetadata_of_ne _ _ (Ne.symm htarget)]

/-- After all items are merged, a key has the last value that they give it, or what it had. -/
theorem find?_applyItems {items : List MetadataItem}
    (h : (d.applyItems kind version items).fault = none) (target : Target) (key : String) :
    (((d.applyItems kind version items).state.metadata target).get kind).find? key
      = (MetadataItem.lastValue? d.name version target key items).or
        (((d.metadata target).get kind).find? key) := by
  induction items generalizing d with
  | nil => rfl
  | cons item rest ih =>
    rw [MetadataItem.lastValue?_cons]
    by_cases hscope : item.InScope d.name version
    · cases hfault : item.fault? kind with
      | some fault =>
        rw [applyItems_cons_of_some hscope hfault] at h
        cases h
      | none =>
        rw [applyItems_cons_of_none hscope hfault] at h ⊢
        rw [ih h, name_merge, find?_merge, MetadataItem.valueFor?, Option.or_assoc]
        by_cases htarget : item.target = target <;> simp [hscope, htarget]
    · rw [applyItems_cons_of_not_inScope hscope] at h ⊢
      rw [ih h, MetadataItem.valueFor?, if_neg (fun hitem => hscope hitem.1), Option.or_none]

end Descriptor

end ProcessPlan
