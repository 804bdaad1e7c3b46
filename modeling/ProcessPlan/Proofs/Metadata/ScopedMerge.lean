import ProcessPlan.Proofs.Metadata.LastValue
import ProcessPlan.Proofs.WellFormed

/-!
# Merging a list of items

A list of items is merged as far as its items in scope are valid. If all of them are, each key has
the last value that they give it. If not, the first invalid one ends the merge, and what is left is
what the items before it make. So a list can be merged in two steps, and to merge it a second time
changes nothing: the values that it gives are there already, and a merge that was ended by an item
is ended by that item again.

## Main definitions

* `Applied.andThen`: one change after another
* `Descriptor.MergedWith`: a descriptor is another one with the last values of a list of items

## Main results

* `Descriptor.applyItems_append`: two lists, one after the other
* `Descriptor.exists_split_of_applyItems`: where a merge ends
* `Descriptor.applyItems_twice`: a list merged a second time
* `Descriptor.applyItems_outcome`: all of it, for every list of items
-/

namespace ProcessPlan

/-- One change after another, which is not made if the first one ends with a fault. -/
def Applied.andThen (a : Applied) (next : Descriptor → Applied) : Applied :=
  match a.fault with
  | none => next a.state
  | some _ => a

namespace Descriptor

variable {d e : Descriptor} {kind : MetadataKind} {version : Version} {items : List MetadataItem}
  {fault : Fault}

/-! ### Parts of a descriptor -/

theorem get_merge_of_ne (d : Descriptor) (item : MetadataItem) (target : Target)
    {kind' : MetadataKind} (h : kind' ≠ kind) :
    ((d.merge kind item).metadata target).get kind' = (d.metadata target).get kind' :=
  Table.ext_find? fun key => by rw [find?_merge, if_neg fun hmerged => h hmerged.2]

/-- Merging items of one kind leaves the other kind alone. -/
theorem get_applyItems_of_ne (items : List MetadataItem) (d : Descriptor) (target : Target)
    {kind' : MetadataKind} (h : kind' ≠ kind) :
    ((d.applyItems kind version items).state.metadata target).get kind'
      = (d.metadata target).get kind' := by
  induction items generalizing d with
  | nil => rfl
  | cons item rest ih =>
    by_cases hscope : item.InScope d.name version
    · cases hfault : item.fault? kind with
      | some fault => rw [applyItems_cons_of_some hscope hfault]
      | none => rw [applyItems_cons_of_none hscope hfault, ih, get_merge_of_ne d item target h]
    · rw [applyItems_cons_of_not_inScope hscope, ih]

/-- A descriptor is made up of its metadata and of what is left without them. -/
theorem ext_metadata (hrest : d.withoutMetadata = e.withoutMetadata)
    (hmaps : ∀ target kind, (d.metadata target).get kind = (e.metadata target).get kind) :
    d = e := by
  have htarget (target : Target) : d.metadata target = e.metadata target :=
    congrArg₂ MetadataMaps.mk (hmaps target .labels) (hmaps target .annotations)
  have hset (d : Descriptor) : d = ((d.withoutMetadata.setMetadata .deployment
      (d.metadata .deployment)).setMetadata .service (d.metadata .service)).setMetadata .pod
      (d.metadata .pod) := rfl
  rw [hset d, hset e, hrest, htarget, htarget, htarget]

/-! ### One list after another -/

/-- A list that is put together from two is merged as the second one after the first. -/
theorem applyItems_append (d : Descriptor) (kind : MetadataKind) (version : Version)
    (xs ys : List MetadataItem) : d.applyItems kind version (xs ++ ys)
      = (d.applyItems kind version xs).andThen (·.applyItems kind version ys) := by
  induction xs generalizing d with
  | nil => rfl
  | cons item rest ih =>
    rw [List.cons_append]
    by_cases hscope : item.InScope d.name version
    · cases hfault : item.fault? kind with
      | some fault =>
        rw [applyItems_cons_of_some hscope hfault, applyItems_cons_of_some hscope hfault]
        rfl
      | none =>
        rw [applyItems_cons_of_none hscope hfault, applyItems_cons_of_none hscope hfault, ih]
    · rw [applyItems_cons_of_not_inScope hscope, applyItems_cons_of_not_inScope hscope, ih]

/-- A merge succeeds exactly if all items in scope are valid. -/
theorem fault_applyItems_eq_none_iff : (d.applyItems kind version items).fault = none ↔
    ∀ item ∈ items, item.InScope d.name version → item.Valid kind := by
  rw [fault_applyItems, Option.map_eq_none_iff, List.findSome?_eq_none_iff]
  simp only [List.mem_filter, decide_eq_true_eq, MetadataItem.fault?_eq_none_iff, and_imp]

/-- A merge that fails ends at the first invalid item in scope, with what the items before it make
and with the fault of that item. -/
theorem exists_split_of_applyItems (h : (d.applyItems kind version items).fault = some fault) :
    ∃ before item after itemFault, items = before ++ item :: after ∧
      item.InScope d.name version ∧ item.fault? kind = some itemFault ∧
      fault = .badItem itemFault ∧
      d.applyItems kind version before = ⟨(d.applyItems kind version items).state, none⟩ := by
  induction items generalizing d with
  | nil => cases h
  | cons first rest ih =>
    by_cases hscope : first.InScope d.name version
    · cases hfault : first.fault? kind with
      | some itemFault =>
        rw [applyItems_cons_of_some hscope hfault] at h ⊢
        exact ⟨[], first, rest, itemFault, rfl, hscope, hfault, (Option.some.inj h).symm, rfl⟩
      | none =>
        rw [applyItems_cons_of_none hscope hfault] at h ⊢
        obtain ⟨before, item, after, itemFault, rfl, hitem, hrest⟩ := ih h
        refine ⟨first :: before, item, after, itemFault, rfl, name_merge d kind first ▸ hitem, ?_⟩
        rwa [applyItems_cons_of_none hscope hfault]
    · rw [applyItems_cons_of_not_inScope hscope] at h ⊢
      obtain ⟨before, item, after, itemFault, rfl, hrest⟩ := ih h
      refine ⟨first :: before, item, after, itemFault, rfl, ?_⟩
      rwa [applyItems_cons_of_not_inScope hscope]

/-! ### A list a second time -/

/-- A list that has been merged gives nothing that is not there. -/
theorem applyItems_twice_of_none (h : (d.applyItems kind version items).fault = none) :
    (d.applyItems kind version items).state.applyItems kind version items
      = d.applyItems kind version items := by
  generalize hs : (d.applyItems kind version items).state = s
  have hname : s.name = d.name := by rw [← hs, name_applyItems]
  have hagain : (s.applyItems kind version items).fault = none := by
    rw [fault_applyItems, hname, ← fault_applyItems, h]
  have hstate : (s.applyItems kind version items).state = s := by
    refine ext_metadata (withoutMetadata_applyItems _ _ _ _) fun target kind' => ?_
    by_cases hkind : kind' = kind
    · subst hkind
      refine Table.ext_find? fun key => ?_
      rw [find?_applyItems hagain, hname, ← hs, find?_applyItems h, ← Option.or_assoc,
        Option.or_self]
    · exact get_applyItems_of_ne items s target hkind
  calc s.applyItems kind version items
      = ⟨(s.applyItems kind version items).state, (s.applyItems kind version items).fault⟩ := rfl
    _ = ⟨(d.applyItems kind version items).state, (d.applyItems kind version items).fault⟩ := by
      rw [hstate, hagain, hs, h]
    _ = d.applyItems kind version items := rfl

/-- A list that is merged a second time changes nothing, and ends as it did before. -/
theorem applyItems_twice (d : Descriptor) (kind : MetadataKind) (version : Version)
    (items : List MetadataItem) :
    (d.applyItems kind version items).state.applyItems kind version items
      = d.applyItems kind version items := by
  cases h : (d.applyItems kind version items).fault with
  | none => exact applyItems_twice_of_none h
  | some fault =>
    obtain ⟨before, item, after, itemFault, rfl, hscope, hfault, rfl, hbefore⟩ :=
      exists_split_of_applyItems h
    generalize hs : (d.applyItems kind version (before ++ item :: after)).state = s at hbefore ⊢
    have hname : s.name = d.name := by rw [← hs, name_applyItems]
    have hagain : s.applyItems kind version before = ⟨s, none⟩ := by
      have htwice := applyItems_twice_of_none (congrArg Applied.fault hbefore)
      rwa [hbefore] at htwice
    rw [applyItems_append, applyItems_append, hbefore, hagain]

/-! ### What a merge makes -/

/-- A descriptor is another one with the items of a kind merged: in the maps of the kind, a key of a
target has the value that the last item in scope to set it there gives it, or what it had if no item
does; the maps of the other kind and all other fields are the same. -/
structure MergedWith (d : Descriptor) (kind : MetadataKind) (version : Version)
    (items : List MetadataItem) (s : Descriptor) : Prop where
  values : ∀ target key value, ((s.metadata target).get kind).find? key = some value ↔
    (∃ before item after, items = before ++ item :: after ∧
      (item.InScope d.name version ∧ item.target = target ∧
        item.entries.find? key = some value) ∧
      ∀ later ∈ after, later.InScope d.name version → later.target = target →
        later.entries.find? key = none) ∨
    ((∀ item ∈ items, item.InScope d.name version → item.target = target →
        item.entries.find? key = none) ∧
      ((d.metadata target).get kind).find? key = some value)
  otherKind : ∀ target kind', kind' ≠ kind →
    (s.metadata target).get kind' = (d.metadata target).get kind'
  otherFields : s.withoutMetadata = d.withoutMetadata

theorem mergedWith_applyItems (h : (d.applyItems kind version items).fault = none) :
    d.MergedWith kind version items (d.applyItems kind version items).state where
  values target key value := by
    rw [find?_applyItems h, Option.or_eq_some_iff, MetadataItem.lastValue?_eq_some_iff,
      MetadataItem.lastValue?, List.findSome?_eq_none_iff]
    simp only [MetadataItem.valueFor?_eq_some_iff, MetadataItem.valueFor?_eq_none_iff,
      List.mem_reverse]
  otherKind target _ hkind := get_applyItems_of_ne items d target hkind
  otherFields := withoutMetadata_applyItems kind version items d

/-- **Merging is scoped, the last value wins, and a fault ends it cleanly.** A merge succeeds exactly
if all items in scope are valid, and then makes the descriptor with the last values of the items. One
that fails does so with the fault of the first invalid item in scope, and leaves what the items
before it make. Two lists can be merged one after the other, and a list a second time to no effect. -/
theorem applyItems_outcome (d : Descriptor) (kind : MetadataKind) (version : Version) :
    (∀ items, (d.applyItems kind version items).fault = none ↔
      ∀ item ∈ items, item.InScope d.name version → item.Valid kind) ∧
    (∀ items, (d.applyItems kind version items).fault = none →
      d.MergedWith kind version items (d.applyItems kind version items).state) ∧
    (∀ items fault, (d.applyItems kind version items).fault = some fault →
      ∃ before item after itemFault, items = before ++ item :: after ∧
        (∀ earlier ∈ before, earlier.InScope d.name version → earlier.Valid kind) ∧
        item.InScope d.name version ∧ item.fault? kind = some itemFault ∧
        fault = .badItem itemFault ∧
        d.applyItems kind version before = ⟨(d.applyItems kind version items).state, none⟩) ∧
    (∀ xs ys, d.applyItems kind version (xs ++ ys)
      = (d.applyItems kind version xs).andThen (·.applyItems kind version ys)) ∧
    ∀ items, (d.applyItems kind version items).state.applyItems kind version items
      = d.applyItems kind version items := by
  refine ⟨fun items => fault_applyItems_eq_none_iff, fun items => mergedWith_applyItems,
    fun items fault hfault => ?_, applyItems_append d kind version,
    applyItems_twice d kind version⟩
  obtain ⟨before, item, after, itemFault, hsplit, hscope, hitem, hfault, hbefore⟩ :=
    exists_split_of_applyItems hfault
  have hvalid := fault_applyItems_eq_none_iff.mp (congrArg Applied.fault hbefore)
  exact ⟨before, item, after, itemFault, hsplit, hvalid, hscope, hitem, hfault, hbefore⟩

end Descriptor

end ProcessPlan
