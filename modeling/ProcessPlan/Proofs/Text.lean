import ProcessPlan.Text.Basic

/-!
# Taking texts apart

What stands in front of a text can be told from it if its characters, or the written forms of its
characters, tell where it ends.

## Main results

* `Text.append_inj_of_all`: a run of characters of one class, in front of one of another
* `Text.flatMap_append_inj`: characters in written forms, up to a mark that starts none of them
* `Text.pieces_append`: the parts on both sides of a separator
* `Text.pieces_join`, `Text.join_pieces`: taking apart at a separator, and putting together with it
-/

namespace ProcessPlan.Text

/-- A run of characters of a class in front of what does not go on with one. -/
theorem append_inj_of_all {p : Char → Bool} {xs ys r r' : List Char} (hxs : ∀ c ∈ xs, p c)
    (hys : ∀ c ∈ ys, p c) (hr : ∀ c ∈ r.head?, p c = false) (hr' : ∀ c ∈ r'.head?, p c = false)
    (h : xs ++ r = ys ++ r') : xs = ys ∧ r = r' := by
  have hend {r : List Char} (hr : ∀ c ∈ r.head?, p c = false) : r.takeWhile p = [] := by
    cases r with
    | nil => rfl
    | cons c rest => simp [hr c rfl]
  have hruns : xs = ys := by
    have htake := congrArg (List.takeWhile p) h
    rwa [List.takeWhile_append_of_pos hxs, List.takeWhile_append_of_pos hys, hend hr, hend hr',
      List.append_nil, List.append_nil] at htake
  subst hruns
  exact ⟨rfl, List.append_cancel_left h⟩

/-- Characters in their written forms, in front of a mark that starts no written form. -/
theorem flatMap_append_inj {write : Char → List Char} {mark : Char} {cs ds r r' : List Char}
    (hwrite : ∀ c d x x', write c ++ x = write d ++ x' → c = d ∧ x = x')
    (hmark : ∀ c x x', write c ++ x ≠ mark :: x')
    (h : cs.flatMap write ++ mark :: r = ds.flatMap write ++ mark :: r') : cs = ds ∧ r = r' := by
  induction cs generalizing ds with
  | nil =>
    cases ds with
    | nil => exact ⟨rfl, List.tail_eq_of_cons_eq h⟩
    | cons d ds =>
      rw [List.flatMap_cons, List.append_assoc] at h
      exact absurd h.symm (hmark d _ _)
  | cons c cs ih =>
    cases ds with
    | nil =>
      rw [List.flatMap_cons, List.append_assoc] at h
      exact absurd h (hmark c _ _)
    | cons d ds =>
      rw [List.flatMap_cons, List.flatMap_cons, List.append_assoc, List.append_assoc] at h
      obtain ⟨rfl, hrest⟩ := hwrite c d _ _ h
      obtain ⟨rfl, rfl⟩ := ih hrest
      exact ⟨rfl, rfl⟩

theorem toList_join_cons (sep part : String) (rest : List String) :
    (join sep (part :: rest)).toList
      = part.toList ++ rest.flatMap fun part => sep.toList ++ part.toList := by
  induction rest generalizing part with
  | nil => simp [join]
  | cons next rest ih => simp [join, ih]

/-! ### Parts and separators -/

/-- The parts on both sides of a separator are all the parts there are. -/
theorem pieces_append (sep : Char) (before after : List Char) :
    pieces sep (before ++ sep :: after) = pieces sep before ++ pieces sep after := by
  induction before with
  | nil => simp [pieces]
  | cons c rest ih =>
    obtain ⟨first, others, hrest⟩ := List.exists_cons_of_ne_nil (pieces_ne_nil sep rest)
    rw [List.cons_append, pieces, pieces, ih, hrest]
    split <;> rfl

theorem pieces_append_flatMap {sep : Char} {first : List Char} {rest : List (List Char)}
    (h : ∀ part ∈ first :: rest, sep ∉ part) :
    pieces sep (first ++ rest.flatMap (sep :: ·)) = first :: rest := by
  induction rest generalizing first with
  | nil => simpa using pieces_of_not_mem (h first List.mem_cons_self)
  | cons next rest ih =>
    obtain ⟨hfirst, hrest⟩ := List.forall_mem_cons.mp h
    rw [List.flatMap_cons, List.cons_append, pieces_append_cons _ hfirst, ih hrest]

theorem eq_of_pieces {sep : Char} {cs first : List Char} {rest : List (List Char)}
    (h : pieces sep cs = first :: rest) : cs = first ++ rest.flatMap (sep :: ·) := by
  induction cs generalizing first rest with
  | nil =>
    obtain ⟨rfl, rfl⟩ := List.cons.inj h
    rfl
  | cons c cs ih =>
    obtain ⟨first', rest', hpieces⟩ := List.exists_cons_of_ne_nil (pieces_ne_nil sep cs)
    rw [pieces, hpieces] at h
    by_cases hc : c = sep
    · rw [if_pos hc] at h
      obtain ⟨rfl, rfl⟩ := List.cons.inj h
      rw [ih hpieces, hc]
      rfl
    · rw [if_neg hc] at h
      obtain ⟨rfl, rfl⟩ := List.cons.inj h
      rw [ih hpieces]
      rfl

/-- Parts without the separator are what a text that is joined from them is taken apart into. -/
theorem pieces_join {sep : Char} {mark : String} (hmark : mark.toList = [sep])
    {parts : List String} (hne : parts ≠ []) (h : ∀ part ∈ parts, sep ∉ part.toList) :
    pieces sep (join mark parts).toList = parts.map String.toList := by
  obtain ⟨part, rest, rfl⟩ := List.exists_cons_of_ne_nil hne
  have hjoin : (join mark (part :: rest)).toList
      = part.toList ++ (rest.map String.toList).flatMap (sep :: ·) := by
    rw [toList_join_cons, hmark, List.flatMap_map]
    rfl
  rw [hjoin, pieces_append_flatMap]
  · rfl
  · simpa using h

/-- A text is joined from the parts it is taken apart into. -/
theorem join_pieces {sep : Char} {mark : String} (hmark : mark.toList = [sep]) (s : String) :
    join mark ((pieces sep s.toList).map String.ofList) = s := by
  obtain ⟨first, rest, hpieces⟩ := List.exists_cons_of_ne_nil (pieces_ne_nil sep s.toList)
  refine String.toList_inj.mp ?_
  rw [hpieces, List.map_cons, toList_join_cons, hmark, List.flatMap_map, eq_of_pieces hpieces]
  simp

end ProcessPlan.Text
