import ProcessPlan.Proofs.Data.Yaml.Implicit
import ProcessPlan.Proofs.Data.Yaml.Quoted

/-!
# Texts of a YAML document are unambiguous

The first character of a written form tells its style. A plain text is a word: no line ends in it,
and no colon in it stands before white space, so that it can be told from what follows it both at
the end of a line and in front of the colon after a key.

## Main definitions

* `Yaml.IsWord`: characters that can stand without quotes

## Main results

* `Yaml.isWord_toString`: an integer is a word
* `Yaml.scalar_append_inj`: a text on its lines in front of what starts to the left of it
* `Yaml.key_append_inj`: a text in front of the colon after a key
* `Yaml.scalar_append_ne_key`: a text on its lines is not such a key
-/

namespace ProcessPlan.Yaml

/-! ### Words -/

/-- Characters that can stand without quotes: they are on one line, and no mark of the language is
among them. -/
structure IsWord (w : List Char) : Prop where
  ne_nil : w ≠ []
  not_break : ∀ c ∈ w, isBreak c = false
  not_space : w.head? ≠ some ' '
  not_indicator : hasIndicator w = false

theorem endsWord_of_hasInnerIndicator {previous : Char} {x y : List Char}
    (h : hasInnerIndicator previous (x ++ ':' :: y) = false) : endsWord y = false := by
  induction x generalizing previous with
  | nil =>
    simp only [List.nil_append, hasInnerIndicator, Bool.or_eq_false_iff, beq_self_eq_true,
      Bool.true_and] at h
    exact h.1.1
  | cons c x ih =>
    simp only [List.cons_append, hasInnerIndicator, Bool.or_eq_false_iff] at h
    exact ih h.2

namespace IsWord

variable {w v : List Char} {b b' : Char} {r r' : List Char}

theorem exists_cons (h : IsWord w) : ∃ c rest, w = c :: rest ∧ c ∉ indicators ∧ c ≠ ' ' ∧
    isBreak c = false ∧ ((c = '?' ∨ c = '-') → endsWord rest = false) := by
  cases w with
  | nil => exact absurd rfl h.ne_nil
  | cons c rest =>
    have hindicator := h.not_indicator
    simp only [hasIndicator, Bool.or_eq_false_iff, Bool.and_eq_false_iff, List.contains_eq_mem,
      decide_eq_false_iff_not] at hindicator
    refine ⟨c, rest, rfl, hindicator.1.1.2, fun hc => h.not_space (hc ▸ rfl),
      h.not_break c List.mem_cons_self, ?_⟩
    rintro (rfl | rfl) <;> simpa using hindicator.1.2

/-- A colon in a word has more of the word after it. -/
theorem endsWord_eq_false {x y : List Char} (h : IsWord (x ++ ':' :: y)) : endsWord y = false := by
  have hindicator := h.not_indicator
  cases x with
  | nil =>
    simp only [List.nil_append, hasIndicator, Bool.or_eq_false_iff, Bool.and_eq_false_iff]
      at hindicator
    simpa using hindicator.1.2
  | cons c x =>
    simp only [List.cons_append, hasIndicator, Bool.or_eq_false_iff] at hindicator
    exact endsWord_of_hasInnerIndicator hindicator.2

/-- A word up to the end of its line. -/
theorem append_newline_inj (hw : IsWord w) (hv : IsWord v) (h : w ++ '\n' :: r = v ++ '\n' :: r') :
    w = v ∧ r = r' := by
  have hne {w : List Char} (hw : IsWord w) : ∀ c ∈ w, (!isBreak c) = true := by
    intro c hc
    rw [hw.not_break c hc]
    rfl
  obtain ⟨hwv, hrest⟩ := Text.append_inj_of_all (hne hw) (hne hv) (by simp [isBreak])
    (by simp [isBreak]) h
  exact ⟨hwv, (List.cons.inj hrest).2⟩

/-- A word does not start with a mark of a block. -/
theorem append_ne_mark (hw : IsWord w) {mark : Char} (hmark : mark = '?' ∨ mark = '-')
    (x y : List Char) : w ++ x ≠ mark :: ' ' :: y := by
  obtain ⟨c, rest, rfl, -, -, -, hends⟩ := hw.exists_cons
  intro h
  obtain ⟨rfl, hrest⟩ := List.cons.inj h
  have hfalse := hends hmark
  cases rest with
  | nil => cases hfalse
  | cons d rest =>
    rw [(List.cons.inj hrest).1] at hfalse
    cases hfalse

/-- A word does not go on with a colon and the end of a word. -/
theorem ne_append_colon (hw : IsWord w) (hb : isBlankOrBreak b) {x y z : List Char}
    (hx : b :: y = x ++ z) : w ≠ v ++ ':' :: x := by
  rintro rfl
  have hends := hw.endsWord_eq_false
  cases x with
  | nil => cases hends
  | cons c x =>
    rw [endsWord, ← (List.cons.inj hx).1, hb] at hends
    cases hends

/-- A word that is a key: a colon and a blank follow it. -/
theorem append_colon_inj (hw : IsWord w) (hv : IsWord v) (hb : isBlankOrBreak b)
    (hb' : isBlankOrBreak b') (h : w ++ ':' :: b :: r = v ++ ':' :: b' :: r') :
    w = v ∧ b :: r = b' :: r' := by
  rcases List.append_eq_append_iff.1 h with ⟨more, rfl, hrest⟩ | ⟨more, rfl, hrest⟩
  · cases more with
    | nil => exact ⟨by simp, (List.cons.inj hrest).2⟩
    | cons c more =>
      obtain ⟨rfl, hmore⟩ := List.cons.inj hrest
      exact absurd rfl (hv.ne_append_colon hb hmore)
  · cases more with
    | nil => exact ⟨by simp, (List.cons.inj hrest).2.symm⟩
    | cons c more =>
      obtain ⟨rfl, hmore⟩ := List.cons.inj hrest
      exact absurd rfl (hw.ne_append_colon hb' hmore)

/-- A word on its line is not a key. -/
theorem append_newline_ne_append_colon (hw : IsWord w) (hv : IsWord v) (hb : isBlankOrBreak b) :
    w ++ '\n' :: r ≠ v ++ ':' :: b :: r' := by
  intro h
  rcases List.append_eq_append_iff.1 h with ⟨more, rfl, hrest⟩ | ⟨more, rfl, hrest⟩
  · cases more with
    | nil => cases hrest
    | cons c more =>
      obtain ⟨rfl, -⟩ := List.cons.inj hrest
      exact absurd (hv.not_break '\n' (by simp)) (by decide)
  · cases more with
    | nil => cases hrest
    | cons c more =>
      obtain ⟨rfl, hmore⟩ := List.cons.inj hrest
      exact absurd rfl (hw.ne_append_colon hb hmore)

end IsWord

/-! ### Integers as words -/

theorem ne_of_isDigit {c mark : Char} (hc : c.isDigit) (hmark : mark.isDigit = false) :
    c ≠ mark := by
  rintro rfl
  rw [hc] at hmark
  cases hmark

theorem isBreak_of_isDigit {c : Char} (h : c.isDigit) : isBreak c = false := by
  simp [isBreak, ne_of_isDigit h]

theorem not_mem_indicators_of_isDigit {c : Char} (h : c.isDigit) : c ∉ indicators := by
  simp [indicators, ne_of_isDigit h]

theorem hasInnerIndicator_of_isDigit {ds : List Char} (h : ∀ c ∈ ds, c.isDigit) (previous : Char) :
    hasInnerIndicator previous ds = false := by
  induction ds generalizing previous with
  | nil => rfl
  | cons c ds ih =>
    rw [List.forall_mem_cons] at h
    simp [hasInnerIndicator, ne_of_isDigit h.1, ih h.2]

theorem isWord_digits {ds : List Char} (hne : ds ≠ []) (h : ∀ c ∈ ds, c.isDigit) : IsWord ds := by
  obtain ⟨c, rest, rfl⟩ := List.exists_cons_of_ne_nil hne
  have hc : c.isDigit := h c List.mem_cons_self
  refine ⟨hne, fun d hd => isBreak_of_isDigit (h d hd), by simp [ne_of_isDigit hc], ?_⟩
  have hdash : ('-' == c) = false := beq_eq_false_iff_ne.2 (ne_of_isDigit hc rfl).symm
  have hpoint : ('.' == c) = false := beq_eq_false_iff_ne.2 (ne_of_isDigit hc rfl).symm
  simp [hasIndicator, List.isPrefixOf, hdash, hpoint, ne_of_isDigit hc,
    not_mem_indicators_of_isDigit hc,
    hasInnerIndicator_of_isDigit (fun d hd => h d (List.mem_cons_of_mem _ hd))]

theorem isWord_dash_digits {ds : List Char} (hne : ds ≠ []) (h : ∀ c ∈ ds, c.isDigit) :
    IsWord ('-' :: ds) := by
  obtain ⟨c, rest, rfl⟩ := List.exists_cons_of_ne_nil hne
  have hc : c.isDigit := h c List.mem_cons_self
  refine ⟨by simp, ?_, by simp, ?_⟩
  · rintro d (_ | ⟨_, hd⟩)
    · rfl
    · exact isBreak_of_isDigit (h d hd)
  · have hdash : ('-' == c) = false := beq_eq_false_iff_ne.2 (ne_of_isDigit hc rfl).symm
    have hmem : '-' ∉ indicators := by decide
    simp [hasIndicator, List.isPrefixOf, endsWord, isBlankOrBreak, hdash, hmem,
      isBreak_of_isDigit hc, ne_of_isDigit hc, hasInnerIndicator_of_isDigit h]

theorem isWord_toString (n : Int) : IsWord (toString n).toList := by
  cases n with
  | ofNat k =>
    rw [Json.toList_toString_ofNat]
    exact isWord_digits Nat.toDigits_ne_nil fun c hc => Json.isDigit_of_mem_toDigits hc
  | negSucc k =>
    rw [Json.toList_toString_negSucc]
    exact isWord_dash_digits Nat.toDigits_ne_nil fun c hc => Json.isDigit_of_mem_toDigits hc

/-! ### Texts in their styles -/

section Styles

variable {column : Nat} {s t : String} {r r' : List Char}

theorem isWord_of_style_eq_plain (h : style s = .plain) :
    IsWord s.toList ∧ isImplicit s = false := by
  have hplain : allowsPlain s.toList = true ∧ isImplicit s = false := by
    unfold style at h
    dsimp only at h
    split at h
    · split at h <;> cases h
    · split at h
      · next hallows => simpa using hallows
      · split at h <;> cases h
  have hallows := hplain.1
  simp only [allowsPlain, Bool.not_eq_true', Bool.or_eq_false_iff] at hallows
  obtain ⟨⟨⟨⟨hhead, -⟩, hbreak⟩, hindicator⟩, -⟩ := hallows
  refine ⟨⟨?_, ?_, ?_, hindicator⟩, hplain.2⟩
  · intro hnil
    have hempty : s = "" := String.toList_injective hnil
    subst hempty
    exact absurd hplain.2 (by decide +kernel)
  · simpa using hbreak
  · intro hspace
    rw [hspace] at hhead
    exact absurd hhead (by decide)

theorem newline_mem_of_style_eq_literal (h : style s = .literal) : '\n' ∈ s.toList := by
  unfold style at h
  dsimp only at h
  split at h
  · next hmem => simpa using hmem
  · split at h
    · cases h
    · split at h <;> cases h

theorem toList_written_of_literal (h : style s = .literal) :
    (written column s).toList = literal column s.toList := by
  simp [written, h]

theorem toList_written_of_plain (h : style s = .plain) : (written column s).toList = s.toList := by
  simp [written, h]

theorem toList_scalar_of_ne_literal (h : style s ≠ .literal) :
    (scalar column s).toList ++ r = (written column s).toList ++ '\n' :: r := by
  simp [scalar, h]

theorem toList_scalar_of_literal (h : style s = .literal) :
    (scalar column s).toList ++ r
      = literal column s.toList ++ blockEnd (endsLine true s.toList) r := by
  have hends : endsInLine s.toList = !endsLine true s.toList := by
    cases hlist : s.toList with
    | nil => exact absurd (hlist ▸ newline_mem_of_style_eq_literal h) List.not_mem_nil
    | cons c cs => rw [endsInLine_eq, endsLine_cons, endsLine_cons]
  cases hlast : endsLine true s.toList <;>
    simp [scalar, h, hends, hlast, blockEnd, toList_written_of_literal h]

/-- The style that the first character of a written form tells. -/
def Style.ofChar (c : Char) : Style :=
  if c = '\'' then singleQuoted else if c = '"' then doubleQuoted else if c = '|' then literal
  else plain

theorem Style.ofChar_of_not_mem {c : Char} (h : c ∉ indicators) : ofChar c = plain := by
  have hne (mark : Char) (hmark : mark ∈ indicators) : c ≠ mark := fun heq => h (heq ▸ hmark)
  simp [ofChar, hne '\'' (by decide), hne '"' (by decide), hne '|' (by decide)]

theorem Style.ofChar_head_word {w : List Char} (h : IsWord w) (r : List Char) :
    (w ++ r).head?.map ofChar = some plain := by
  obtain ⟨c, rest, rfl, hc, -⟩ := h.exists_cons
  rw [List.cons_append, List.head?_cons, Option.map_some, ofChar_of_not_mem hc]

/-- The first character of a written form tells its style. -/
theorem ofChar_head_written (column : Nat) (s : String) (r : List Char) :
    ((written column s).toList ++ r).head?.map Style.ofChar = some (style s) := by
  cases hstyle : style s with
  | plain =>
    rw [toList_written_of_plain hstyle]
    exact Style.ofChar_head_word (isWord_of_style_eq_plain hstyle).1 r
  | singleQuoted =>
    simp only [written, hstyle, String.toList_ofList, singleQuoted, List.append_assoc]
    rfl
  | doubleQuoted =>
    simp only [written, hstyle, String.toList_ofList, doubleQuoted, List.append_assoc]
    rfl
  | literal =>
    simp only [written, hstyle, String.toList_ofList, literal, List.append_assoc]
    rfl

theorem style_eq_of_append (h : (written column s).toList ++ r = (written column t).toList ++ r') :
    style s = style t := by
  have hhead := congrArg (fun cs => cs.head?.map Style.ofChar) h
  simpa only [ofChar_head_written, Option.some.injEq] using hhead

/-- A text between quotes in front of anything but a quote determines both. -/
theorem quoted_append_inj (hs : style s = .singleQuoted ∨ style s = .doubleQuoted)
    (hst : style s = style t) (hr : r.head? ≠ some '\'') (hr' : r'.head? ≠ some '\'')
    (h : (written column s).toList ++ r = (written column t).toList ++ r') : s = t ∧ r = r' := by
  have hchars : s.toList = t.toList ∧ r = r' := by
    rcases hs with hs | hs
    · simp only [written, ← hst, hs, String.toList_ofList] at h
      exact singleQuoted_append_inj hr hr' h
    · simp only [written, ← hst, hs, String.toList_ofList] at h
      exact doubleQuoted_append_inj h
  exact ⟨String.toList_injective hchars.1, hchars.2⟩

theorem exists_toList_scalar_append_eq (column : Nat) (s : String) (r : List Char) :
    ∃ x, (scalar column s).toList ++ r = (written column s).toList ++ x := by
  by_cases hs : style s = .literal
  · exact ⟨_, (toList_scalar_of_literal hs).trans (by rw [toList_written_of_literal hs])⟩
  · exact ⟨_, toList_scalar_of_ne_literal hs⟩

/-- The written form of a text, with the end of its line, in front of what starts to the left of it
determines both. -/
theorem scalar_append_inj (hr : LeftOf column r) (hr' : LeftOf column r')
    (h : (scalar column s).toList ++ r = (scalar column t).toList ++ r') : s = t ∧ r = r' := by
  have hst : style s = style t := by
    obtain ⟨x, hx⟩ := exists_toList_scalar_append_eq column s r
    obtain ⟨x', hx'⟩ := exists_toList_scalar_append_eq column t r'
    exact style_eq_of_append (hx.symm.trans (h.trans hx'))
  by_cases hliteral : style s = .literal
  · have hne {s : String} (hs : style s = .literal) : s.toList ≠ [] :=
      List.ne_nil_of_mem (newline_mem_of_style_eq_literal hs)
    rw [toList_scalar_of_literal hliteral, toList_scalar_of_literal (hst ▸ hliteral)] at h
    obtain ⟨hlist, rfl⟩ := literal_append_inj (hne hliteral) (hne (hst ▸ hliteral)) hr hr' h
    exact ⟨String.toList_injective hlist, rfl⟩
  · rw [toList_scalar_of_ne_literal hliteral, toList_scalar_of_ne_literal (hst ▸ hliteral)] at h
    cases hs : style s with
    | literal => exact absurd hs hliteral
    | plain =>
      rw [toList_written_of_plain hs, toList_written_of_plain (hst ▸ hs)] at h
      obtain ⟨hlist, rfl⟩ := (isWord_of_style_eq_plain hs).1.append_newline_inj
        (isWord_of_style_eq_plain (hst ▸ hs)).1 h
      exact ⟨String.toList_injective hlist, rfl⟩
    | _ =>
      obtain ⟨rfl, hrest⟩ := quoted_append_inj (by simp [hs]) hst (by simp) (by simp) h
      exact ⟨rfl, (List.cons.inj hrest).2⟩

/-- A key in front of a colon and a blank determines both. -/
theorem key_append_inj {b b' : Char} (hs : style s ≠ .literal) (hb : isBlankOrBreak b)
    (hb' : isBlankOrBreak b')
    (h : (written column s).toList ++ ':' :: b :: r
      = (written column t).toList ++ ':' :: b' :: r') :
    s = t ∧ b :: r = b' :: r' := by
  have hst := style_eq_of_append h
  cases hstyle : style s with
  | literal => exact absurd hstyle hs
  | plain =>
    rw [toList_written_of_plain hstyle, toList_written_of_plain (hst ▸ hstyle)] at h
    obtain ⟨hlist, hrest⟩ := (isWord_of_style_eq_plain hstyle).1.append_colon_inj
      (isWord_of_style_eq_plain (hst ▸ hstyle)).1 hb hb' h
    exact ⟨String.toList_injective hlist, hrest⟩
  | _ =>
    obtain ⟨rfl, hrest⟩ := quoted_append_inj (by simp [hstyle]) hst (by simp) (by simp) h
    exact ⟨rfl, (List.cons.inj hrest).2⟩

/-- A text is not written like a key. -/
theorem scalar_append_ne_key {b : Char} (ht : style t ≠ .literal) (hb : isBlankOrBreak b) :
    (scalar column s).toList ++ r ≠ (written column t).toList ++ ':' :: b :: r' := by
  intro h
  have hst : style s = style t := by
    obtain ⟨x, hx⟩ := exists_toList_scalar_append_eq column s r
    exact style_eq_of_append (hx.symm.trans h)
  rw [toList_scalar_of_ne_literal (hst ▸ ht)] at h
  cases hstyle : style s with
  | literal => exact ht (hst ▸ hstyle)
  | plain =>
    rw [toList_written_of_plain hstyle, toList_written_of_plain (hst ▸ hstyle)] at h
    exact (isWord_of_style_eq_plain hstyle).1.append_newline_ne_append_colon
      (isWord_of_style_eq_plain (hst ▸ hstyle)).1 hb h
  | _ =>
    obtain ⟨-, hrest⟩ := quoted_append_inj (by simp [hstyle]) hst (by simp) (by simp) h
    cases hrest

/-- Only a plain text starts like a word. -/
theorem style_eq_plain_of_word_append {w : List Char} (hw : IsWord w)
    (h : w ++ r = (written column s).toList ++ r') : style s = .plain := by
  have hhead := congrArg (fun cs => cs.head?.map Style.ofChar) h
  simpa only [Style.ofChar_head_word hw, ofChar_head_written, Option.some.injEq, eq_comm]
    using hhead

/-- A word is written like no text but the one that it is. -/
theorem eq_toList_of_word_append {w : List Char} (hw : IsWord w)
    (h : w ++ '\n' :: r = (scalar column s).toList ++ r') :
    style s = .plain ∧ w = s.toList ∧ r = r' := by
  have hplain : style s = .plain := by
    obtain ⟨x, hx⟩ := exists_toList_scalar_append_eq column s r'
    exact style_eq_plain_of_word_append hw (h.trans hx)
  rw [toList_scalar_of_ne_literal (by simp [hplain]), toList_written_of_plain hplain] at h
  exact ⟨hplain, hw.append_newline_inj (isWord_of_style_eq_plain hplain).1 h⟩

/-- A word on its line is not written like a key. -/
theorem word_append_ne_key {w : List Char} {b : Char} (hw : IsWord w) (hb : isBlankOrBreak b) :
    w ++ '\n' :: r ≠ (written column t).toList ++ ':' :: b :: r' := by
  intro h
  have hplain := style_eq_plain_of_word_append hw h
  rw [toList_written_of_plain hplain] at h
  exact hw.append_newline_ne_append_colon (isWord_of_style_eq_plain hplain).1 hb h

/-- A written form does not start with a mark of a block. -/
theorem written_append_ne_mark {mark : Char} (hmark : mark = '?' ∨ mark = '-') (column : Nat)
    (s : String) (x y : List Char) : (written column s).toList ++ x ≠ mark :: ' ' :: y := by
  intro h
  have hplain : style s = .plain := by
    have hhead := congrArg (fun cs => cs.head?.map Style.ofChar) h
    rw [ofChar_head_written] at hhead
    rcases hmark with rfl | rfl <;> exact Option.some.inj hhead
  rw [toList_written_of_plain hplain] at h
  exact (isWord_of_style_eq_plain hplain).1.append_ne_mark hmark x y h

end Styles

end ProcessPlan.Yaml
