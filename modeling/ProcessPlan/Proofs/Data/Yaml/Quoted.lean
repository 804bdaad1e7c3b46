import Mathlib.Data.List.Basic
import ProcessPlan.Data.Yaml.Scalar
import ProcessPlan.Proofs.Text

/-!
# Quoted texts and literal blocks are unambiguous

A text between quotes ends at the closing quote, as no other is left as it is in the text. A literal
block ends where a line starts to the left of it; whether the text ends the last line is marked in
front of the block.

## Main definitions

* `Yaml.LeftOf`: what follows starts to the left of a column

## Main results

* `Yaml.escape_append_inj`: an escape sequence tells its character
* `Yaml.doubleQuoted_append_inj`, `Yaml.singleQuoted_append_inj`, `Yaml.literal_append_inj`: a
  written form in front of what can follow it determines the text and the rest
-/

namespace ProcessPlan.Yaml

/-! ### Double quotes -/

/-- The number of some digits in base sixteen. -/
def readHex : Nat → List Char → Option (Nat × List Char)
  | 0, cs => some (0, cs)
  | width + 1, cs =>
    match readHex width cs with
    | some (n, c :: rest) => (Digits.value? 16 c).map fun d => (16 * n + d, rest)
    | _ => none

theorem value?_hexDigit : ∀ d < 16, Digits.value? 16 (Nat.digitChar d).toUpper = some d := by
  decide +kernel

theorem readHex_hex (width n : Nat) (rest : List Char) :
    readHex width (hex width n ++ rest) = some (n % Nat.pow 16 width, rest) := by
  induction width generalizing n rest with
  | zero => simp [readHex, hex, Nat.mod_one]
  | succ width ih =>
    rw [hex, List.append_assoc, List.singleton_append, readHex, ih]
    dsimp only
    have hpow : Nat.pow 16 (width + 1) = 16 * Nat.pow 16 width := Nat.mul_comm _ _
    rw [value?_hexDigit (n % 16) (by omega), Option.map_some, hpow, Nat.mod_mul, Nat.add_comm]

/-- The letters of escape sequences, each with the character that it stands for. -/
def letters : List (Char × Char) :=
  [('0', '\x00'), ('a', '\x07'), ('b', '\x08'), ('t', '\t'), ('n', '\n'), ('v', '\x0b'),
    ('f', '\x0c'), ('r', '\r'), ('e', '\x1b'), ('"', '"'), ('\\', '\\'), ('N', '\u0085'),
    ('L', '\u2028'), ('P', '\u2029')]

/-- The character of an escape sequence without its backslash. -/
def unescape : List Char → Option (Char × List Char)
  | [] => none
  | c :: cs =>
    match [('x', 2), ('u', 4), ('U', 8)].lookup c with
    | some width => (readHex width cs).map fun (n, rest) => (Char.ofNat n, rest)
    | none => (letters.lookup c).map (·, cs)

/-- An escape sequence is a backslash and what tells the character. -/
theorem exists_escape_eq (c : Char) : ∃ body, escape c = '\\' :: body ∧
    ∀ rest, unescape (body ++ rest) = some (c, rest) := by
  have hnumber {n width : Nat} (h : n < Nat.pow 16 width) (rest : List Char) :
      (readHex width (hex width n ++ rest)).map (fun (n, rest) => (Char.ofNat n, rest))
        = some (Char.ofNat n, rest) := by
    rw [readHex_hex, Nat.mod_eq_of_lt h]
    rfl
  unfold escape
  split
  case h_15 =>
    dsimp only
    split
    · next h =>
      exact ⟨'x' :: hex 2 c.toNat, rfl, fun rest =>
        (hnumber (Nat.lt_of_le_of_lt h (by decide)) rest).trans (by rw [Char.ofNat_toNat])⟩
    · split
      · next h =>
        exact ⟨'u' :: hex 4 c.toNat, rfl, fun rest =>
          (hnumber (Nat.lt_of_le_of_lt h (by decide)) rest).trans (by rw [Char.ofNat_toNat])⟩
      · have hc : c.toNat < Nat.pow 16 8 := c.val.toNat_lt
        exact ⟨'U' :: hex 8 c.toNat, rfl, fun rest =>
          (hnumber hc rest).trans (by rw [Char.ofNat_toNat])⟩
  all_goals exact ⟨_, rfl, fun rest => rfl⟩

theorem escape_append_inj {c d : Char} {r r' : List Char} (h : escape c ++ r = escape d ++ r') :
    c = d ∧ r = r' := by
  obtain ⟨body, hescape, hread⟩ := exists_escape_eq c
  obtain ⟨body', hescape', hread'⟩ := exists_escape_eq d
  rw [hescape, hescape'] at h
  have hbody : body ++ r = body' ++ r' := (List.cons.inj h).2
  have hboth : some (c, r) = some (d, r') := by
    rw [← hread r, hbody, hread']
  simpa using hboth

/-- Whether a character is escaped between double quotes. -/
def needsEscape (c : Char) : Bool := !isPrintable c || isBreak c || c == '"' || c == '\\'

theorem doubleQuotedChar_of_true {c : Char} (h : needsEscape c) : doubleQuotedChar c = escape c :=
  if_pos h

theorem doubleQuotedChar_of_false {c : Char} (h : needsEscape c = false) :
    doubleQuotedChar c = [c] :=
  if_neg (by simpa [needsEscape] using h)

theorem doubleQuotedChar_append_inj {c d : Char} {r r' : List Char}
    (h : doubleQuotedChar c ++ r = doubleQuotedChar d ++ r') : c = d ∧ r = r' := by
  -- A character that stands for itself is no backslash.
  have hne {c d : Char} {r r' : List Char} (hc : needsEscape c) (hd : needsEscape d = false) :
      doubleQuotedChar c ++ r ≠ doubleQuotedChar d ++ r' := by
    obtain ⟨body, hescape, -⟩ := exists_escape_eq c
    rw [doubleQuotedChar_of_true hc, doubleQuotedChar_of_false hd, hescape]
    rintro ⟨⟩
    exact absurd hd (by decide)
  cases hc : needsEscape c <;> cases hd : needsEscape d
  · rw [doubleQuotedChar_of_false hc, doubleQuotedChar_of_false hd] at h
    exact List.cons.inj h
  · exact absurd h.symm (hne hd hc)
  · exact absurd h (hne hc hd)
  · rw [doubleQuotedChar_of_true hc, doubleQuotedChar_of_true hd] at h
    exact escape_append_inj h

/-- The closing quote starts the written form of no character. -/
theorem doubleQuotedChar_append_ne_quote (c : Char) (r r' : List Char) :
    doubleQuotedChar c ++ r ≠ '"' :: r' := by
  cases hc : needsEscape c
  · rw [doubleQuotedChar_of_false hc]
    rintro ⟨⟩
    exact absurd hc (by decide)
  · obtain ⟨body, hescape, -⟩ := exists_escape_eq c
    rw [doubleQuotedChar_of_true hc, hescape]
    rintro ⟨⟩

theorem doubleQuoted_append_inj {cs ds r r' : List Char}
    (h : doubleQuoted cs ++ r = doubleQuoted ds ++ r') : cs = ds ∧ r = r' := by
  refine Text.flatMap_append_inj (fun _ _ _ _ => doubleQuotedChar_append_inj)
    doubleQuotedChar_append_ne_quote ?_
  simpa [doubleQuoted] using h

/-! ### Indented lines -/

section Indented

variable {column : Nat} {write : Char → List Char}

/-- Whether a text, from a point on that does or does not start a line, ends at the start of one. -/
def endsLine (lineStart : Bool) (cs : List Char) : Bool := (cs.getLast?.map isBreak).getD lineStart

@[simp] theorem endsLine_nil (lineStart : Bool) : endsLine lineStart [] = lineStart := rfl

theorem endsLine_cons (lineStart : Bool) (c : Char) (cs : List Char) :
    endsLine lineStart (c :: cs) = endsLine (isBreak c) cs := by
  rw [endsLine, endsLine, List.getLast?_cons, Option.map_some, Option.getD_some, Option.getD_map]

theorem indented_cons (lineStart : Bool) (c : Char) (cs : List Char) :
    indented column write lineStart (c :: cs) =
      (if isBreak c then [c] else (if lineStart then spaces column else []) ++ write c) ++
        indented column write (isBreak c) cs := by
  rw [indented]
  split <;> simp [*]

/-- A line does not start with the end of one. -/
theorem lineStart_append_ne {lineStart : Bool} {c d : Char} (hc : isBreak c)
    (hd : isBreak d = false) (r r' : List Char) :
    c :: r ≠ (if lineStart then spaces column else []) ++ d :: r' := by
  cases lineStart
  · rintro ⟨⟩
    rw [hc] at hd
    cases hd
  · cases column with
    | zero =>
      rintro ⟨⟩
      rw [hc] at hd
      cases hd
    | succ column =>
      rintro ⟨⟩
      exact absurd hc (by decide)

theorem indented_cons_append_inj {lineStart : Bool} {c d : Char} {cs ds r r' : List Char}
    (hwrite : ∀ c d x x', write c ++ x = write d ++ x' → c = d ∧ x = x')
    (hhead : ∀ c x, ∃ tail, write c ++ x = c :: tail)
    (h : indented column write lineStart (c :: cs) ++ r
      = indented column write lineStart (d :: ds) ++ r') :
    c = d ∧ indented column write (isBreak c) cs ++ r
      = indented column write (isBreak c) ds ++ r' := by
  rw [indented_cons, indented_cons] at h
  cases hc : isBreak c <;> cases hd : isBreak d <;>
    simp only [hc, hd, if_true, if_false, Bool.false_eq_true, List.append_assoc,
      List.singleton_append, List.append_cancel_left_eq] at h
  · obtain ⟨rfl, hrest⟩ := hwrite c d _ _ h
    exact ⟨rfl, hrest⟩
  · obtain ⟨tail, htail⟩ := hhead c (indented column write false cs ++ r)
    rw [htail] at h
    exact absurd h.symm (lineStart_append_ne hd hc _ _)
  · obtain ⟨tail, htail⟩ := hhead d (indented column write false ds ++ r')
    rw [htail] at h
    exact absurd h (lineStart_append_ne hc hd _ _)
  · exact List.cons.inj h

end Indented

/-! ### Single quotes -/

theorem singleQuotedChar_append_eq (c : Char) (r : List Char) :
    ∃ tail, singleQuotedChar c ++ r = c :: tail := by
  unfold singleQuotedChar
  split <;> exact ⟨_, rfl⟩

theorem singleQuotedChar_append_inj {c d : Char} {r r' : List Char}
    (h : singleQuotedChar c ++ r = singleQuotedChar d ++ r') : c = d ∧ r = r' := by
  have hcd : c = d := by
    obtain ⟨tail, hc⟩ := singleQuotedChar_append_eq c r
    obtain ⟨tail', hd⟩ := singleQuotedChar_append_eq d r'
    rw [hc, hd] at h
    exact (List.cons.inj h).1
  subst hcd
  exact ⟨rfl, List.append_cancel_left h⟩

/-- The closing quote is not the start of more text, for no other quote follows it. -/
theorem closing_ne_indented {column : Nat} {lineStart : Bool} {d : Char} {ds r r' : List Char}
    (hr : r.head? ≠ some '\'') :
    (if lineStart then spaces column else []) ++ '\'' :: r
      ≠ indented column singleQuotedChar lineStart (d :: ds) ++ r' := by
  rw [indented_cons]
  cases hd : isBreak d
  · simp only [if_false, Bool.false_eq_true, List.append_assoc, ne_eq, List.append_cancel_left_eq]
    unfold singleQuotedChar
    split
    · rintro h
      exact hr (by rw [(List.cons.inj h).2]; simp [*])
    · next hne =>
      rintro ⟨⟩
      exact hne rfl
  · simp only [if_true, List.singleton_append]
    exact fun h => lineStart_append_ne hd (by decide) _ _ h.symm

theorem indented_singleQuoted_append_inj {column : Nat} {lineStart : Bool} {cs ds r r' : List Char}
    (hr : r.head? ≠ some '\'') (hr' : r'.head? ≠ some '\'')
    (h : indented column singleQuotedChar lineStart cs ++
        ((if endsLine lineStart cs then spaces column else []) ++ '\'' :: r)
      = indented column singleQuotedChar lineStart ds ++
        ((if endsLine lineStart ds then spaces column else []) ++ '\'' :: r')) :
    cs = ds ∧ r = r' := by
  induction cs generalizing lineStart ds with
  | nil =>
    cases ds with
    | nil =>
      rw [endsLine_nil] at h
      exact ⟨rfl, (List.cons.inj (List.append_cancel_left (List.append_cancel_left h))).2⟩
    | cons d ds => exact absurd h (closing_ne_indented hr)
  | cons c cs ih =>
    cases ds with
    | nil => exact absurd h.symm (closing_ne_indented hr')
    | cons d ds =>
      rw [endsLine_cons, endsLine_cons] at h
      obtain ⟨rfl, hrest⟩ := indented_cons_append_inj
        (fun _ _ _ _ => singleQuotedChar_append_inj) singleQuotedChar_append_eq h
      obtain ⟨rfl, rfl⟩ := ih hrest
      exact ⟨rfl, rfl⟩

theorem endsInLine_eq (cs : List Char) : endsInLine cs = !endsLine false cs := by
  cases hlast : cs.getLast? <;> simp [endsInLine, endsLine, hlast]

theorem singleQuoted_append_eq (column : Nat) (cs r : List Char) :
    singleQuoted column cs ++ r = '\'' :: (indented column singleQuotedChar false cs ++
      ((if endsLine false cs then spaces column else []) ++ '\'' :: r)) := by
  cases h : endsLine false cs <;> simp [singleQuoted, endsInLine_eq, h]

theorem singleQuoted_append_inj {column : Nat} {cs ds r r' : List Char}
    (hr : r.head? ≠ some '\'') (hr' : r'.head? ≠ some '\'')
    (h : singleQuoted column cs ++ r = singleQuoted column ds ++ r') : cs = ds ∧ r = r' := by
  rw [singleQuoted_append_eq, singleQuoted_append_eq] at h
  exact indented_singleQuoted_append_inj hr hr' (List.cons.inj h).2

/-! ### Literal blocks -/

/-- What follows starts to the left of a column: it has fewer spaces in front, and no empty line. -/
structure LeftOf (column : Nat) (rest : List Char) : Prop where
  ne_spaces : ∀ c tail, rest ≠ spaces column ++ c :: tail
  ne_break : ∀ c tail, isBreak c → rest ≠ c :: tail

theorem LeftOf.mono {column column' : Nat} {rest : List Char} (h : LeftOf column rest)
    (hle : column ≤ column') : LeftOf column' rest where
  ne_spaces c tail := by
    obtain ⟨k, rfl⟩ := Nat.exists_eq_add_of_le hle
    rw [spaces, List.replicate_add, List.append_assoc]
    cases k with
    | zero => exact h.ne_spaces c tail
    | succ k => exact h.ne_spaces ' ' _
  ne_break := h.ne_break

/-- More of a literal block is not what follows it. -/
theorem LeftOf.ne_indented {column : Nat} {rest : List Char} (h : LeftOf column rest) (c : Char)
    (cs r : List Char) : rest ≠ indented column (fun c => [c]) true (c :: cs) ++ r := by
  rw [indented_cons]
  cases hc : isBreak c
  · simp only [if_false, if_true, Bool.false_eq_true, List.append_assoc, List.singleton_append]
    exact h.ne_spaces c _
  · simp only [if_true, List.cons_append]
    exact h.ne_break c _ hc

/-- The end of a literal block, which is a line end if the text does not end a line itself. -/
def blockEnd (endsLine : Bool) (rest : List Char) : List Char :=
  if endsLine then rest else '\n' :: rest

/-- What follows a literal block is not the start of more text. -/
theorem blockEnd_ne_indented {column : Nat} {lineStart : Bool} {d : Char} {ds r r' : List Char}
    (hr : LeftOf column r) (hends : endsLine lineStart (d :: ds) = lineStart) :
    blockEnd lineStart r ≠ indented column (fun c => [c]) lineStart (d :: ds) ++ r' := by
  cases lineStart
  · rw [endsLine_cons] at hends
    rw [indented_cons]
    intro h
    cases hd : isBreak d
    · rw [hd] at h
      cases h
      exact absurd hd (by decide)
    · rw [hd] at h hends
      cases ds with
      | nil => cases hends
      | cons e es => exact hr.ne_indented e es r' (by simpa [blockEnd] using (List.cons.inj h).2)
  · exact hr.ne_indented d ds r'

theorem indented_literal_append_inj {column : Nat} {lineStart ends : Bool} {cs ds r r' : List Char}
    (hr : LeftOf column r) (hr' : LeftOf column r') (hcs : endsLine lineStart cs = ends)
    (hds : endsLine lineStart ds = ends)
    (h : indented column (fun c => [c]) lineStart cs ++ blockEnd ends r
      = indented column (fun c => [c]) lineStart ds ++ blockEnd ends r') :
    cs = ds ∧ r = r' := by
  induction cs generalizing lineStart ds with
  | nil =>
    cases ds with
    | nil =>
      cases ends
      · exact ⟨rfl, (List.cons.inj h).2⟩
      · exact ⟨rfl, h⟩
    | cons d ds =>
      rw [endsLine_nil] at hcs
      subst hcs
      exact absurd h (blockEnd_ne_indented hr hds)
  | cons c cs ih =>
    cases ds with
    | nil =>
      rw [endsLine_nil] at hds
      subst hds
      exact absurd h.symm (blockEnd_ne_indented hr' hcs)
    | cons d ds =>
      rw [endsLine_cons] at hcs hds
      obtain ⟨rfl, hrest⟩ := indented_cons_append_inj
        (fun _ _ _ _ h => List.cons.inj h) (fun _ _ => ⟨_, rfl⟩) h
      obtain ⟨rfl, rfl⟩ := ih hcs hds hrest
      exact ⟨rfl, rfl⟩

/-- What stands in front of the first line of a literal block. -/
def marks (cs : List Char) : List Char :=
  (if cs.head?.any isEdge then ['2'] else []) ++ chomping cs

theorem literal_eq (column : Nat) (cs : List Char) :
    literal column cs = '|' :: (marks cs ++ '\n' :: indented column (fun c => [c]) true cs) := by
  simp [literal, marks]

theorem chomping_subset (cs : List Char) : chomping cs ⊆ ['-', '+'] := by
  unfold chomping
  split
  · simp
  · split
    · simp
    · split <;> simp

theorem marks_subset (cs : List Char) : marks cs ⊆ ['2', '-', '+'] := by
  refine List.append_subset.2 ⟨?_, fun c hc => List.mem_cons_of_mem _ (chomping_subset cs hc)⟩
  split <;> simp

/-- A block whose text does not end a line is marked. -/
theorem dash_mem_marks_iff {cs : List Char} (h : cs ≠ []) :
    '-' ∈ marks cs ↔ endsLine true cs = false := by
  obtain rfl | ⟨before, last, rfl⟩ := List.eq_nil_or_concat cs
  · exact absurd rfl h
  · cases hlast : isBreak last <;> simp [marks, chomping, endsLine, hlast]

/-- A literal block in front of what starts to the left of it determines both. -/
theorem literal_append_inj {column : Nat} {cs ds r r' : List Char} (hcs : cs ≠ []) (hds : ds ≠ [])
    (hr : LeftOf column r) (hr' : LeftOf column r')
    (h : literal column cs ++ blockEnd (endsLine true cs) r
      = literal column ds ++ blockEnd (endsLine true ds) r') : cs = ds ∧ r = r' := by
  simp only [literal_eq, List.cons_append, List.append_assoc] at h
  have hne (cs : List Char) : ∀ c ∈ marks cs, (c != '\n') = true := by
    intro c hc
    have hmem := marks_subset cs hc
    simp only [List.mem_cons, List.not_mem_nil, or_false] at hmem
    rcases hmem with rfl | rfl | rfl <;> rfl
  obtain ⟨hmarks, hbody⟩ := Text.append_inj_of_all (hne cs) (hne ds) (by simp) (by simp)
    (List.cons.inj h).2
  have hends : endsLine true cs = endsLine true ds := by
    rw [Bool.eq_iff_iff, ← not_iff_not, Bool.not_eq_true, Bool.not_eq_true,
      ← dash_mem_marks_iff hcs, ← dash_mem_marks_iff hds, hmarks]
  rw [hends] at hbody
  exact indented_literal_append_inj hr hr' hends rfl (List.cons.inj hbody).2

end ProcessPlan.Yaml
