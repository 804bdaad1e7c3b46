import ProcessPlan.Overlay

/-!
# What merging items does to a descriptor

`Descriptor.applyItems` walks a list of items, skips those out of scope, and stops at the first one
with a fault. Two facts about it carry everything that is said of whole builds. It touches nothing
but metadata, which `Descriptor.withoutMetadata` says for all other fields at once. And whether and
how it fails depends on the items in scope alone, never on the metadata that is already there.

## Main definitions

* `Descriptor.withoutMetadata`: all of a descriptor but its metadata

## Main results

* `Descriptor.withoutMetadata_applyItems`: only metadata changes
* `Descriptor.applyItems_filter`: items out of scope count for nothing
* `Descriptor.fault_applyItems`: the fault is the first among the items in scope
-/

namespace ProcessPlan

namespace Descriptor

variable {d : Descriptor} {kind : MetadataKind} {version : Version} {item : MetadataItem}
  {rest : List MetadataItem}

/-! ### One item at the front -/

theorem applyItems_cons_of_not_inScope (h : ¬ item.InScope d.name version) :
    d.applyItems kind version (item :: rest) = d.applyItems kind version rest := by
  rw [applyItems, if_neg h]

theorem applyItems_cons_of_some {fault : ItemFault} (h : item.InScope d.name version)
    (hfault : item.fault? kind = some fault) :
    d.applyItems kind version (item :: rest) = ⟨d, some (.badItem fault)⟩ := by
  rw [applyItems, if_pos h, hfault]

theorem applyItems_cons_of_none (h : item.InScope d.name version)
    (hfault : item.fault? kind = none) :
    d.applyItems kind version (item :: rest)
      = (d.merge kind item).applyItems kind version rest := by
  rw [applyItems, if_pos h, hfault]

@[simp] theorem name_merge (d : Descriptor) (kind : MetadataKind) (item : MetadataItem) :
    (d.merge kind item).name = d.name :=
  name_setMetadata _ _ _

/-! ### Only metadata changes -/

/-- The descriptor with all its metadata removed. -/
def withoutMetadata (d : Descriptor) : Descriptor :=
  { d with deploymentMetadata := .empty, serviceMetadata := .empty, podMetadata := .empty }

@[simp] theorem withoutMetadata_setMetadata (d : Descriptor) (target : Target) (m : MetadataMaps) :
    (d.setMetadata target m).withoutMetadata = d.withoutMetadata := by
  cases target <;> rfl

theorem withoutMetadata_merge (d : Descriptor) (kind : MetadataKind) (item : MetadataItem) :
    (d.merge kind item).withoutMetadata = d.withoutMetadata :=
  withoutMetadata_setMetadata _ _ _

/-- Merging items changes nothing but metadata, whether it ends with a fault or not. -/
theorem withoutMetadata_applyItems (kind : MetadataKind) (version : Version)
    (items : List MetadataItem) (d : Descriptor) :
    (d.applyItems kind version items).state.withoutMetadata = d.withoutMetadata := by
  induction items generalizing d with
  | nil => rfl
  | cons item rest ih =>
    by_cases hscope : item.InScope d.name version
    · cases hfault : item.fault? kind with
      | some fault => rw [applyItems_cons_of_some hscope hfault]
      | none => rw [applyItems_cons_of_none hscope hfault, ih, withoutMetadata_merge]
    · rw [applyItems_cons_of_not_inScope hscope, ih]

@[simp] theorem name_applyItems (kind : MetadataKind) (version : Version)
    (items : List MetadataItem) (d : Descriptor) :
    (d.applyItems kind version items).state.name = d.name := by
  have h := congrArg name (withoutMetadata_applyItems kind version items d)
  exact h

/-! ### Only items in scope count -/

/-- Items out of scope can be left out, even those with a fault. -/
theorem applyItems_filter (kind : MetadataKind) (version : Version) (items : List MetadataItem)
    (d : Descriptor) :
    d.applyItems kind version (items.filter (·.InScope d.name version))
      = d.applyItems kind version items := by
  induction items generalizing d with
  | nil => rfl
  | cons item rest ih =>
    by_cases hscope : item.InScope d.name version
    · rw [List.filter_cons_of_pos (by simpa using hscope)]
      cases hfault : item.fault? kind with
      | some fault =>
        rw [applyItems_cons_of_some hscope hfault, applyItems_cons_of_some hscope hfault]
      | none =>
        rw [applyItems_cons_of_none hscope hfault, applyItems_cons_of_none hscope hfault,
          ← ih (d.merge kind item), name_merge]
    · rw [List.filter_cons_of_neg (by simpa using hscope), ih,
        applyItems_cons_of_not_inScope hscope]

/-- A merge ends with the fault of the first item in scope that has one. -/
theorem fault_applyItems (kind : MetadataKind) (version : Version) (items : List MetadataItem)
    (d : Descriptor) :
    (d.applyItems kind version items).fault
      = ((items.filter (·.InScope d.name version)).findSome? (·.fault? kind)).map .badItem := by
  induction items generalizing d with
  | nil => rfl
  | cons item rest ih =>
    by_cases hscope : item.InScope d.name version
    · rw [List.filter_cons_of_pos (by simpa using hscope), List.findSome?_cons]
      cases hfault : item.fault? kind with
      | some fault => rw [applyItems_cons_of_some hscope hfault]; rfl
      | none => rw [applyItems_cons_of_none hscope hfault, ih, name_merge]
    · rw [List.filter_cons_of_neg (by simpa using hscope),
        applyItems_cons_of_not_inScope hscope, ih]

end Descriptor

end ProcessPlan
