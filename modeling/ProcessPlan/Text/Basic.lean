/-!
# Texts

Cutting a text at a character, trimming it, and lowering its case.

## Main definitions

* `Text.cutChars`, `Text.cut`: the two parts around the first occurrence of a character
* `Text.pieces`: all the parts between the occurrences of a character
* `Text.join`: texts with a separator between each two
* `Text.isBlank`, `Text.trim`: the property `White_Space`, and a text without blanks at its ends
* `Text.lower`: a text with its ASCII capitals in lower case

## Main results

* `Text.cutChars_eq_some_iff`: the first part is the one without the character
* `Text.pieces_append_cons`: a part that has been cut off comes before the parts of the rest
-/

namespace ProcessPlan.Text

/-! ### Cutting a text at a character -/

/-- What stands before and after the first `sep`, if there is one. -/
def cutChars (sep : Char) : List Char → Option (List Char × List Char)
  | [] => none
  | c :: cs =>
    if c = sep then some ([], cs)
    else (cutChars sep cs).map fun parts => (c :: parts.1, parts.2)

theorem cutChars_eq_some_iff {sep : Char} {cs before after : List Char} :
    cutChars sep cs = some (before, after) ↔ cs = before ++ sep :: after ∧ sep ∉ before := by
  induction cs generalizing before with
  | nil => simp [cutChars]
  | cons c cs ih =>
    unfold cutChars
    by_cases h : c = sep
    · subst h
      cases before with
      | nil => simp
      | cons b before => simp +contextual [eq_comm]
    · cases before with
      | nil => simp [h]
      | cons b before =>
        simp only [h, if_false, Option.map_eq_some_iff, Prod.mk.injEq, List.cons.injEq, Prod.exists,
          List.cons_append, List.mem_cons, not_or]
        constructor
        · rintro ⟨x, y, hxy, ⟨rfl, rfl⟩, rfl⟩
          have := ih.1 hxy
          exact ⟨⟨rfl, this.1⟩, fun e => h e.symm, this.2⟩
        · rintro ⟨⟨rfl, hcs⟩, _, hmem⟩
          exact ⟨before, after, ih.2 ⟨hcs, hmem⟩, ⟨rfl, rfl⟩, rfl⟩

theorem cutChars_eq_none_iff {sep : Char} {cs : List Char} :
    cutChars sep cs = none ↔ sep ∉ cs := by
  induction cs with
  | nil => simp [cutChars]
  | cons c cs ih =>
    unfold cutChars
    by_cases h : c = sep
    · simp [h]
    · simp [h, ih, Ne.symm h]

/-- What stands before and after the first `sep` of a text, if there is one. -/
def cut (sep : Char) (s : String) : Option (String × String) :=
  (cutChars sep s.toList).map fun parts => (String.ofList parts.1, String.ofList parts.2)

/-- The parts between the occurrences of `sep`: one more than there are of them. -/
def pieces (sep : Char) : List Char → List (List Char)
  | [] => [[]]
  | c :: cs =>
    if c = sep then [] :: pieces sep cs
    else
      match pieces sep cs with
      | [] => [[c]]
      | first :: rest => (c :: first) :: rest

@[simp] theorem pieces_ne_nil (sep : Char) (cs : List Char) : pieces sep cs ≠ [] := by
  cases cs with
  | nil => simp [pieces]
  | cons c cs =>
    unfold pieces
    split
    · simp
    · split <;> simp

theorem pieces_of_not_mem {sep : Char} {cs : List Char} (h : sep ∉ cs) : pieces sep cs = [cs] := by
  induction cs with
  | nil => rfl
  | cons c cs ih =>
    have ⟨hc, hcs⟩ := not_or.1 (mt List.mem_cons.2 h)
    simp [pieces, Ne.symm hc, ih hcs]

theorem pieces_append_cons {sep : Char} {before : List Char} (after : List Char)
    (h : sep ∉ before) : pieces sep (before ++ sep :: after) = before :: pieces sep after := by
  induction before with
  | nil => simp [pieces]
  | cons c before ih =>
    have ⟨hc, hb⟩ := not_or.1 (mt List.mem_cons.2 h)
    simp [pieces, Ne.symm hc, ih hb]

/-- Texts one after the other with a separator between each two. -/
def join (sep : String) : List String → String
  | [] => ""
  | [s] => s
  | s :: rest => s ++ sep ++ join sep rest

/-! ### White space

The zero-width space U+200B and the byte order mark U+FEFF do not have the property `White_Space`. -/

/-- The Unicode property `White_Space`, 25 characters in all. -/
def isBlank (c : Char) : Bool :=
  let n := c.toNat
  (9 ≤ n && n ≤ 13) || n == 0x20 || n == 0x85 || n == 0xA0 || n == 0x1680 ||
    (0x2000 ≤ n && n ≤ 0x200A) || n == 0x2028 || n == 0x2029 || n == 0x202F || n == 0x205F ||
    n == 0x3000

/-- A list of characters without the blanks it starts and ends with. -/
def trimChars (cs : List Char) : List Char :=
  ((cs.dropWhile isBlank).reverse.dropWhile isBlank).reverse

/-- A text without the blanks it starts and ends with. -/
def trim (s : String) : String := String.ofList (trimChars s.toList)

/-! ### Lower case

Names such as `deployment` or `tcp` are recognised in any mixture of cases. Apart from the ASCII
capitals only the Kelvin sign has a lower case within ASCII, a `k`, which no such name contains; so
lowering the ASCII letters decides equality with them. -/

/-- A text with its ASCII capitals in lower case. -/
def lower (s : String) : String := String.ofList (s.toList.map Char.toLower)

end ProcessPlan.Text
