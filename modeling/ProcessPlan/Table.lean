/-!
# Tables keyed by text

A `Table α` is a finite map from strings to `α` that lists its entries by increasing key, so that
two tables with the same entries are equal and printing one needs no sorting. Strings are ordered
by code point, which is also the order of their UTF-8 bytes.

## Main definitions

* `Table`: the entries, with the proof that their keys increase
* `Table.find?`, `Table.insert`: look-up, and setting a key to a value
* `Table.insertAll`: setting several keys from left to right, so that the last one wins

## Main results

* `Table.find?_insert`: what a look-up sees after one insertion
-/

namespace ProcessPlan

/-- A finite map from strings, its entries by strictly increasing key. -/
structure Table (α : Type) where
  entries : List (String × α)
  sorted : entries.Pairwise (fun a b => a.1 < b.1)
deriving DecidableEq

namespace Table

variable {α : Type}

/-- The table without entries. -/
def empty : Table α := ⟨[], .nil⟩

instance : EmptyCollection (Table α) := ⟨empty⟩

instance : Inhabited (Table α) := ⟨empty⟩

/-- Whether a table has no entry. -/
def isEmpty (t : Table α) : Bool := t.entries.isEmpty

/-- The value of a key. -/
def find? (t : Table α) (key : String) : Option α := t.entries.lookup key

/-- Put an entry in its place in a list with increasing keys, in exchange for one of its key. -/
def place (key : String) (value : α) : List (String × α) → List (String × α)
  | [] => [(key, value)]
  | entry :: rest =>
    if key < entry.1 then (key, value) :: entry :: rest
    else if key = entry.1 then (key, value) :: rest
    else entry :: place key value rest

theorem mem_place {key : String} {value : α} {entry : String × α} {entries : List (String × α)}
    (h : entry ∈ place key value entries) : entry = (key, value) ∨ entry ∈ entries := by
  induction entries with
  | nil => simpa [place] using h
  | cons first rest ih =>
    unfold place at h
    split at h
    · simpa using h
    · split at h
      · rcases List.mem_cons.1 h with h | h
        · exact .inl h
        · exact .inr (List.mem_cons_of_mem _ h)
      · rcases List.mem_cons.1 h with h | h
        · exact .inr (h ▸ List.mem_cons_self)
        · exact (ih h).imp_right (List.mem_cons_of_mem _)

theorem sorted_place (key : String) (value : α) {entries : List (String × α)}
    (h : entries.Pairwise (fun a b => a.1 < b.1)) :
    (place key value entries).Pairwise (fun a b => a.1 < b.1) := by
  induction entries with
  | nil => simp [place]
  | cons first rest ih =>
    have ⟨hfirst, hrest⟩ := List.pairwise_cons.1 h
    unfold place
    split
    · rename_i hlt
      refine List.pairwise_cons.2 ⟨fun entry hmem => ?_, h⟩
      rcases List.mem_cons.1 hmem with rfl | hmem
      · exact hlt
      · exact String.lt_trans hlt (hfirst entry hmem)
    · split
      · rename_i heq
        exact List.pairwise_cons.2 ⟨fun entry hmem => heq ▸ hfirst entry hmem, hrest⟩
      · rename_i hlt hne
        refine List.pairwise_cons.2 ⟨fun entry hmem => ?_, ih hrest⟩
        rcases mem_place hmem with rfl | hmem
        · exact Std.lt_of_le_of_ne (Std.not_lt.1 hlt) (Ne.symm hne)
        · exact hfirst entry hmem

/-- Set a key to a value, whatever it was before. -/
def insert (t : Table α) (key : String) (value : α) : Table α :=
  ⟨place key value t.entries, sorted_place key value t.sorted⟩

/-- Set several keys from left to right: the last value of a key stays. -/
def insertAll (t : Table α) (entries : List (String × α)) : Table α :=
  entries.foldl (fun t entry => t.insert entry.1 entry.2) t

/-- The table that holds the last value of each key of a list. -/
def ofList (entries : List (String × α)) : Table α := empty.insertAll entries

theorem lookup_cons_ite (key k : String) (v : α) (rest : List (String × α)) :
    ((k, v) :: rest).lookup key = if key = k then some v else rest.lookup key := by
  by_cases h : key = k
  · subst h
    simp
  · simp [List.lookup_cons, beq_false_of_ne h, h]

theorem lookup_place (key key' : String) (value : α) (entries : List (String × α)) :
    (place key value entries).lookup key' =
      if key' = key then some value else entries.lookup key' := by
  induction entries with
  | nil => simp [place, lookup_cons_ite]
  | cons first rest ih =>
    obtain ⟨k, v⟩ := first
    unfold place
    split
    · simp [lookup_cons_ite]
    · split
      · rename_i heq
        simp only at heq
        subst heq
        simp only [lookup_cons_ite]
        split <;> rfl
      · rename_i hne
        simp only [lookup_cons_ite, ih]
        by_cases hk : key' = k
        · subst hk
          simp [Ne.symm hne]
        · simp [hk]

/-- A look-up after an insertion sees the new value at its key and the old table elsewhere. -/
theorem find?_insert (t : Table α) (key key' : String) (value : α) :
    (t.insert key value).find? key' = if key' = key then some value else t.find? key' :=
  lookup_place key key' value t.entries

@[simp] theorem find?_empty (key : String) : (empty : Table α).find? key = none := rfl

end Table

end ProcessPlan
