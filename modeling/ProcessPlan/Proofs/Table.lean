import Mathlib.Data.List.Induction
import Mathlib.Data.List.Sort
import ProcessPlan.Table

/-!
# Tables as finite maps

The entries of a table are exactly what its look-ups find, so a table is known by them.

## Main results

* `Table.mem_entries_iff`: an entry is what the look-up of its key finds
* `Table.ext_find?`: tables that answer all look-ups alike are equal
* `Table.mem_insertAll`, `Table.find?_insertAll`: the entries after several insertions
* `Table.find?_ofList_eq_some_iff`: of several entries with one key, the last counts
* `Table.ofList_of_perm`: the order in which a table is put together does not matter
-/

namespace ProcessPlan.Table

variable {α : Type} {t u : Table α}

private theorem lookup_of_mem {entries : List (String × α)}
    (hsorted : entries.Pairwise (fun a b => a.1 < b.1)) {key : String} {value : α}
    (h : (key, value) ∈ entries) : entries.lookup key = some value := by
  induction entries with
  | nil => cases h
  | cons first rest ih =>
    have ⟨hfirst, hrest⟩ := List.pairwise_cons.1 hsorted
    rcases List.mem_cons.1 h with rfl | hmem
    · exact List.lookup_cons_self
    · -- The keys increase, so the key of an entry further on is not the first one.
      have hne : key ≠ first.1 := fun heq =>
        String.lt_irrefl _ (heq ▸ hfirst (key, value) hmem)
      rw [List.lookup_cons, beq_false_of_ne hne]
      exact ih hrest hmem

theorem mem_entries_iff {key : String} {value : α} :
    (key, value) ∈ t.entries ↔ t.find? key = some value := by
  refine ⟨lookup_of_mem t.sorted, fun h => ?_⟩
  obtain ⟨before, after, hentries, -⟩ := List.lookup_eq_some_iff.1 h
  exact hentries ▸ List.mem_append_right _ List.mem_cons_self

theorem isEmpty_iff : t.isEmpty = true ↔ t = ∅ := by
  obtain ⟨entries, sorted⟩ := t
  cases entries with
  | nil => exact iff_of_true rfl rfl
  | cons first rest => exact iff_of_false nofun nofun

/-- Tables that answer all look-ups alike are equal. -/
theorem ext_find? (h : ∀ key, t.find? key = u.find? key) : t = u := by
  have hmem (entry : String × α) : entry ∈ t.entries ↔ entry ∈ u.entries := by
    rw [mem_entries_iff, mem_entries_iff, h]
  have : Std.Irrefl (fun a b : String × α => a.1 < b.1) := ⟨fun a => String.lt_irrefl a.1⟩
  have : Std.Antisymm (fun a b : String × α => a.1 < b.1) :=
    ⟨fun _ _ hab hba => absurd hba (String.lt_asymm hab)⟩
  have hentries : t.entries = u.entries := t.sorted.eq_of_mem_iff u.sorted hmem
  cases t
  cases u
  cases hentries
  rfl

/-- After several insertions an entry was there before, or is one of those inserted. -/
theorem mem_insertAll {entries : List (String × α)} {entry : String × α}
    (h : entry ∈ (t.insertAll entries).entries) : entry ∈ t.entries ∨ entry ∈ entries := by
  induction entries generalizing t with
  | nil => exact Or.inl h
  | cons first rest ih =>
    rcases ih (t := t.insert first.1 first.2) h with hmem | hmem
    · rcases mem_place hmem with rfl | hmem
      · exact Or.inr List.mem_cons_self
      · exact Or.inl hmem
    · exact Or.inr (List.mem_cons_of_mem _ hmem)

/-- After several insertions the last one of a key counts, and without any the old value. -/
theorem find?_insertAll (entries : List (String × α)) (key : String) :
    (t.insertAll entries).find? key
      = ((entries.findRev? (·.1 = key)).map (·.2)).or (t.find? key) := by
  induction entries using List.reverseRecOn with
  | nil => rfl
  | append_singleton before last ih =>
    have hlast : t.insertAll (before ++ [last]) = (t.insertAll before).insert last.1 last.2 := by
      rw [insertAll, List.foldl_append]
      rfl
    rw [hlast, find?_insert, ih, List.findRev?_eq_find?_reverse, List.findRev?_eq_find?_reverse,
      List.reverse_append, List.reverse_singleton, List.singleton_append, List.find?_cons]
    by_cases h : last.1 = key
    · simp [h]
    · simp [h, Ne.symm h]

/-- A key has the value of an entry of a list that no later entry overrides. -/
theorem find?_ofList_eq_some_iff {entries : List (String × α)} {key : String} {value : α} :
    (ofList entries).find? key = some value ↔ ∃ before after,
      entries = before ++ (key, value) :: after ∧ ∀ later ∈ after, later.1 ≠ key := by
  rw [ofList, find?_insertAll, find?_empty, Option.or_none, List.findRev?_eq_find?_reverse,
    Option.map_eq_some_iff]
  simp only [List.find?_eq_some_iff_append, decide_eq_true_eq]
  constructor
  · rintro ⟨entry, ⟨rfl, after, before, hsplit, hafter⟩, rfl⟩
    refine ⟨before.reverse, after.reverse, ?_, by simpa using hafter⟩
    simpa using congrArg List.reverse hsplit
  · rintro ⟨before, after, rfl, hafter⟩
    exact ⟨(key, value), ⟨rfl, after.reverse, before.reverse, by simp, by simpa using hafter⟩, rfl⟩

/-- A key that no entry of a list has has no value. -/
theorem find?_ofList_eq_none_iff {entries : List (String × α)} {key : String} :
    (ofList entries).find? key = none ↔ ∀ entry ∈ entries, entry.1 ≠ key := by
  rw [ofList, find?_insertAll, find?_empty, Option.or_none, List.findRev?_eq_find?_reverse,
    Option.map_eq_none_iff, List.find?_eq_none]
  simp

/-- A list with the entries of a table in any order makes up the table. -/
theorem ofList_of_perm {entries : List (String × α)} (h : entries.Perm t.entries) :
    ofList entries = t := by
  refine ext_find? fun key => ?_
  rw [ofList, find?_insertAll, find?_empty, Option.or_none, List.findRev?_eq_find?_reverse]
  cases hfind : entries.reverse.find? (·.1 = key) with
  | none =>
    symm
    refine Option.eq_none_iff_forall_ne_some.2 fun value hvalue => ?_
    have hmem : (key, value) ∈ entries.reverse :=
      List.mem_reverse.2 (h.mem_iff.2 (mem_entries_iff.2 hvalue))
    simpa using List.find?_eq_none.1 hfind _ hmem
  | some entry =>
    obtain rfl : entry.1 = key := by simpa using List.find?_some hfind
    have hmem : entry ∈ t.entries :=
      h.mem_iff.1 (List.mem_reverse.1 (List.mem_of_find?_eq_some hfind))
    exact (mem_entries_iff.1 hmem).symm

end ProcessPlan.Table
