import ProcessPlan.Proofs.Overlay.Finished
import ProcessPlan.Proofs.Table
import ProcessPlan.Proofs.WellFormed

/-!
# Where labels and annotations come from

Every label and every annotation of a descriptor was put there by an item: one of the target, in an
overlay of the kind, in scope for the process, and without a fault. That is an invariant of all
descriptors on the way, those that a failing overlay leaves behind included, since an item is
checked before any of its entries is merged. That no key breaks the grammar, and no value of a
label, is a consequence.

## Main definitions

* `Overlay.Supplies`: a list of overlays holds an item that an entry can come from
* `Descriptor.MetadataFrom`: all entries of a descriptor come from items of a list of overlays
* `Descriptor.LegalMetadata`: keys and values of labels keep the grammar

## Main results

* `Overlay.metadataFrom_apply`: one overlay keeps the invariant, whatever its outcome
* `metadata_legal_and_supplied`: what holds of the metadata of all descriptors of a build
-/

namespace ProcessPlan

/-! ### Entries of descriptors -/

namespace Descriptor

variable {d : Descriptor} {kind : MetadataKind} {target : Target} {item : MetadataItem}
  {entry : String × String}

/-- The labels or annotations that a descriptor has for a target. -/
def entries (d : Descriptor) (target : Target) (kind : MetadataKind) : List (String × String) :=
  ((d.metadata target).get kind).entries

@[simp] theorem entries_blank (name : String) (routable : Bool) (target : Target)
    (kind : MetadataKind) : (blank name routable).entries target kind = [] := by
  cases target <;> cases kind <;> rfl

/-- An entry after a merge was there before, or is one of the item for its target and kind. -/
theorem mem_entries_merge {kind' : MetadataKind}
    (h : entry ∈ (d.merge kind' item).entries target kind) :
    entry ∈ d.entries target kind ∨
      target = item.target ∧ kind = kind' ∧ entry ∈ item.entries.entries := by
  by_cases htarget : target = item.target
  · subst htarget
    rw [entries, merge, metadata_setMetadata_self] at h
    by_cases hkind : kind = kind'
    · subst hkind
      rw [MetadataMaps.get_set_self] at h
      exact (Table.mem_insertAll h).imp_right fun hmem => ⟨rfl, rfl, hmem⟩
    · rw [MetadataMaps.get_set_of_ne _ _ hkind] at h
      exact Or.inl h
  · rw [entries, merge, metadata_setMetadata_of_ne _ _ htarget] at h
    exact Or.inl h

end Descriptor

/-! ### The invariant -/

namespace Overlay

/-- Some item of an overlay of the kind is of the target, in scope for the process and without a
fault, and holds the entry. -/
def Supplies (overlays : List Overlay) (process : String) (target : Target) (kind : MetadataKind)
    (entry : String × String) : Prop :=
  ∃ items version, .metadata kind items version ∈ overlays ∧
    ∃ item ∈ items, item.InScope process version ∧ item.target = target ∧
      item.fault? kind = none ∧ entry ∈ item.entries.entries

end Overlay

/-- Every entry of a descriptor comes from an item of a list of overlays. -/
def Descriptor.MetadataFrom (process : String) (overlays : List Overlay) (d : Descriptor) : Prop :=
  ∀ target kind, ∀ entry ∈ d.entries target kind,
    Overlay.Supplies overlays process target kind entry

/-- The metadata of a descriptor keeps the grammar. -/
structure Descriptor.LegalMetadata (d : Descriptor) : Prop where
  keys : ∀ target kind, ∀ entry ∈ d.entries target kind, Metadata.keyFault? entry.1 = none
  labelValues : ∀ target, ∀ entry ∈ d.entries target .labels, Metadata.IsLabelValue entry.2

/-- What an item without a fault holds is legal. -/
theorem Descriptor.MetadataFrom.legal {process : String} {overlays : List Overlay} {d : Descriptor}
    (h : d.MetadataFrom process overlays) : d.LegalMetadata where
  keys target kind entry hentry := by
    obtain ⟨_, _, _, item, _, _, _, hfault, hmem⟩ := h target kind entry hentry
    rw [Metadata.keyFault?_eq_none_iff]
    exact (MetadataItem.fault?_eq_none_iff.mp hfault).keys entry hmem
  labelValues target entry hentry := by
    obtain ⟨_, _, _, item, _, _, _, hfault, hmem⟩ := h target .labels entry hentry
    exact (MetadataItem.fault?_eq_none_iff.mp hfault).values rfl entry hmem

namespace Overlay

variable {process : String} {overlays : List Overlay} {overlay : Overlay} {d : Descriptor}

/-- Items of an overlay of the list keep the invariant, also if one of them ends the merge. -/
theorem metadataFrom_applyItems {kind : MetadataKind} {version : Version}
    {all : List MetadataItem} (hmem : .metadata kind all version ∈ overlays)
    {items : List MetadataItem} (hitems : items ⊆ all) (h : d.MetadataFrom d.name overlays) :
    (d.applyItems kind version items).state.MetadataFrom d.name overlays := by
  induction items generalizing d with
  | nil => exact h
  | cons item rest ih =>
    obtain ⟨hitem, hrest⟩ := List.cons_subset.mp hitems
    by_cases hscope : item.InScope d.name version
    · cases hfault : item.fault? kind with
      | some fault =>
        rw [Descriptor.applyItems_cons_of_some hscope hfault]
        exact h
      | none =>
        rw [Descriptor.applyItems_cons_of_none hscope hfault, ← d.name_merge kind item]
        refine ih hrest fun target kind' entry hentry => ?_
        rw [Descriptor.name_merge]
        rcases Descriptor.mem_entries_merge hentry with hold | ⟨rfl, rfl, hnew⟩
        · exact h target kind' entry hold
        · exact ⟨all, version, hmem, item, hitem, hscope, rfl, hfault, hnew⟩
    · rw [Descriptor.applyItems_cons_of_not_inScope hscope]
      exact ih hrest h

/-- An overlay of the list keeps the invariant, whether it ends with a fault or not. -/
theorem metadataFrom_apply (hmem : overlay ∈ overlays) (d : Descriptor)
    (h : d.name = process ∧ d.MetadataFrom process overlays) :
    (overlay.apply d).state.name = process ∧
      (overlay.apply d).state.MetadataFrom process overlays := by
  obtain ⟨rfl, h⟩ := h
  refine ⟨name_apply overlay d, ?_⟩
  cases overlay with
  | metadata kind items version => exact metadataFrom_applyItems hmem (List.Subset.refl items) h
  | portsAndProbes source =>
    have hrest : d.withoutWiring.MetadataFrom d.name overlays := h
    rw [← withoutWiring_wirePorts source d] at hrest
    exact hrest
  | units count =>
    rw [state_apply_units]
    exact h
  | _ => exact h

theorem metadataFrom_blank (name : String) (routable : Bool) (overlays : List Overlay) :
    (Descriptor.blank name routable).MetadataFrom name overlays := by
  intro target kind entry hentry
  rw [Descriptor.entries_blank] at hentry
  exact absurd hentry List.not_mem_nil

/-- Where a list of overlays leads, or stops, every entry comes from one of its items. -/
theorem metadataFrom_applyAll (name : String) (routable : Bool) (overlays : List Overlay) :
    (applyAll overlays (.blank name routable)).state.MetadataFrom name overlays :=
  (applyAll_preserves (fun _ hmem d => metadataFrom_apply hmem d)
    ⟨rfl, metadataFrom_blank name routable overlays⟩).2

/-- So it is within an overlay, after any number of its items. -/
theorem Runs.metadataFrom_applyItems {name : String} {routable : Bool}
    {before after : List Overlay} {kind : MetadataKind} {items more : List MetadataItem}
    {version : Version} (h : Runs before (.blank name routable) d)
    (hsplit : overlays = before ++ .metadata kind (items ++ more) version :: after) :
    (d.applyItems kind version items).state.MetadataFrom name overlays := by
  have hbefore : before ⊆ overlays := hsplit ▸ List.subset_append_left _ _
  have hmem : .metadata kind (items ++ more) version ∈ overlays := by simp [hsplit]
  obtain ⟨rfl, hd⟩ := h.preserves (fun _ ho d => metadataFrom_apply (hbefore ho) d)
    ⟨rfl, metadataFrom_blank name routable overlays⟩
  exact Overlay.metadataFrom_applyItems hmem (List.subset_append_left items more) hd

/-! ### Descriptors on the way -/

/-- The outcome of a step of a trace is that of the overlays up to it. -/
theorem applyAll_of_trace {step : Overlay × Applied} {before after : List (Overlay × Applied)}
    (h : trace overlays d = before ++ step :: after) :
    (before ++ [step]).map Prod.fst <+: overlays ∧
      applyAll ((before ++ [step]).map Prod.fst) d = step.2 := by
  induction before generalizing overlays d with
  | nil =>
    cases overlays with
    | nil => exact absurd h (by simp [trace])
    | cons overlay rest =>
      obtain ⟨rfl, -⟩ := List.cons.inj h
      refine ⟨List.prefix_cons_iff.mpr (Or.inr ⟨[], rfl, List.nil_prefix⟩), ?_⟩
      rcases hfirst : overlay.apply d with ⟨d', _ | fault⟩
      · exact applyAll_cons_of_none hfirst
      · exact (applyAll_cons_of_some (by rw [hfirst])).trans hfirst
  | cons first before ih =>
    cases overlays with
    | nil => exact absurd h (by simp [trace])
    | cons overlay rest =>
      obtain ⟨rfl, hrest⟩ := List.cons.inj h
      rcases hfirst : overlay.apply d with ⟨d', _ | fault⟩
      · simp only [hfirst, Option.isNone_none, if_true] at hrest
        obtain ⟨hstart, houtcome⟩ := ih hrest
        refine ⟨List.prefix_cons_inj overlay |>.mpr hstart, ?_⟩
        exact (applyAll_cons_of_none hfirst).trans houtcome
      · -- a step with a fault is the last
        simp [hfirst] at hrest

end Overlay

/-- **A descriptor never carries an illegal label or annotation.** The metadata of a finished
descriptor keeps the grammar, and each entry of it comes from an item of the target, in scope, in an
overlay of the kind. The same holds of every descriptor on the way: of those between overlays, the
one that a failing overlay leaves behind included, with the overlays up to there, and of those
between the items of one overlay. -/
theorem metadata_legal_and_supplied (name : String) (routable : Bool) (overlays : List Overlay) :
    (∀ d, build name routable overlays = .ok d →
      d.LegalMetadata ∧ d.MetadataFrom name overlays) ∧
    (∀ before step after, Overlay.trace overlays (.blank name routable) = before ++ step :: after →
      (before ++ [step]).map Prod.fst <+: overlays ∧ step.2.state.LegalMetadata ∧
        step.2.state.MetadataFrom name ((before ++ [step]).map Prod.fst)) ∧
    (∀ before kind items more version after d,
      overlays = before ++ .metadata kind (items ++ more) version :: after →
        Overlay.Runs before (.blank name routable) d →
          (d.applyItems kind version items).state.LegalMetadata ∧
            (d.applyItems kind version items).state.MetadataFrom name overlays) := by
  have hall := Overlay.metadataFrom_applyAll name routable
  refine ⟨fun d hbuild => ?_, fun before step after htrace => ?_, ?_⟩
  · obtain ⟨s, hrun, -, rfl⟩ := build_eq_ok_iff.mp hbuild
    have hs := hall overlays
    rw [Overlay.applyAll_eq_none_iff.mpr hrun] at hs
    have hd : s.withPortVariables.MetadataFrom name overlays := hs
    exact ⟨hd.legal, hd⟩
  · obtain ⟨hstart, houtcome⟩ := Overlay.applyAll_of_trace htrace
    have hstep := hall ((before ++ [step]).map Prod.fst)
    rw [houtcome] at hstep
    exact ⟨hstart, hstep.legal, hstep⟩
  · intro before kind items more version after d hsplit hrun
    have hitems := hrun.metadataFrom_applyItems hsplit
    exact ⟨hitems.legal, hitems⟩

end ProcessPlan
