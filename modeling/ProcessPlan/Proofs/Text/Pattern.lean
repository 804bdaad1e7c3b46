import Mathlib.Computability.Language
import ProcessPlan.Proofs.Text
import ProcessPlan.Text.Pattern

/-!
# What patterns describe

The texts that a pattern describes are a language: a choice is a union, one pattern after another a
product, and a pattern any number of times a Kleene star. Reading a text from the left decides
whether it belongs to the language, because what may follow a character are just the texts that
belong to it with that character in front.

## Main definitions

* `Text.Pattern.language`: the texts that a pattern describes

## Main results

* `Text.Pattern.mem_language_after_iff`: one character of a text
* `Text.Pattern.accepts_iff`: a whole text
* `Text.Pattern.mem_language_many_one_iff`, `Text.Pattern.mem_language_separated_iff`
-/

namespace ProcessPlan.Text.Pattern

open scoped Computability

variable {p q : Pattern} {allowed : Char → Bool} {c : Char} {cs : List Char}

/-- The texts that a pattern describes. -/
def language : Pattern → Language Char
  | never => 0
  | nothing => 1
  | one allowed => {cs : List Char | ∃ c, allowed c = true ∧ cs = [c]}
  | seq p q => p.language * q.language
  | either p q => p.language + q.language
  | many p => p.language∗

/-! ### The constructors -/

theorem mem_language_one_iff :
    cs ∈ (one allowed).language ↔ ∃ c, allowed c = true ∧ cs = [c] := Iff.rfl

theorem mem_language_seq_iff :
    cs ∈ (seq p q).language ↔ ∃ xs ∈ p.language, ∃ ys ∈ q.language, xs ++ ys = cs :=
  Language.mem_mul

theorem mem_language_either_iff :
    cs ∈ (either p q).language ↔ cs ∈ p.language ∨ cs ∈ q.language := Iff.rfl

theorem mem_language_optional_iff :
    cs ∈ p.optional.language ↔ cs = [] ∨ cs ∈ p.language := Iff.rfl

@[simp] theorem language_andThen (p q : Pattern) :
    (p.andThen q).language = p.language * q.language := by
  cases p <;> simp [andThen, language]

@[simp] theorem language_orElse (p q : Pattern) :
    (p.orElse q).language = p.language + q.language := by
  cases p with
  | never => exact (zero_add _).symm
  | _ =>
    cases q with
    | never => exact (add_zero _).symm
    | _ => rfl

/-! ### Words of products and stars -/

theorem nil_mem_mul_iff {l m : Language Char} : [] ∈ l * m ↔ [] ∈ l ∧ [] ∈ m := by
  simp [Language.mem_mul]

/-- A character at the front of a product comes from the first factor, unless that is empty. -/
theorem cons_mem_mul_iff {l m : Language Char} : c :: cs ∈ l * m ↔
    (∃ xs ys, xs ++ ys = cs ∧ c :: xs ∈ l ∧ ys ∈ m) ∨ [] ∈ l ∧ c :: cs ∈ m := by
  rw [Language.mem_mul]
  constructor
  · rintro ⟨xs, hxs, ys, hys, hsplit⟩
    cases xs with
    | nil => exact Or.inr ⟨hxs, hsplit ▸ hys⟩
    | cons x xs =>
      obtain ⟨rfl, rfl⟩ := List.cons.inj hsplit
      exact Or.inl ⟨xs, ys, rfl, hxs, hys⟩
  · rintro (⟨xs, ys, rfl, hxs, hys⟩ | ⟨hnil, hcs⟩)
    · exact ⟨c :: xs, hxs, ys, hys, rfl⟩
    · exact ⟨[], hnil, c :: cs, hcs, rfl⟩

/-- A character at the front of a star comes from the first word of it that is not empty. -/
theorem cons_mem_kstar_iff {l : Language Char} :
    c :: cs ∈ l∗ ↔ ∃ xs ys, xs ++ ys = cs ∧ c :: xs ∈ l ∧ ys ∈ l∗ := by
  constructor
  · rw [Language.mem_kstar_iff_exists_nonempty]
    rintro ⟨words, hcs, hwords⟩
    cases words with
    | nil => exact absurd hcs (by simp)
    | cons word words =>
      obtain ⟨hword, hne⟩ := hwords word List.mem_cons_self
      obtain ⟨x, xs, rfl⟩ := List.exists_cons_of_ne_nil hne
      obtain ⟨rfl, rfl⟩ := List.cons.inj hcs
      have hrest : words.flatten ∈ l∗ :=
        Language.join_mem_kstar fun y hy => (hwords y (List.mem_cons_of_mem _ hy)).1
      exact ⟨xs, words.flatten, rfl, hword, hrest⟩
  · rintro ⟨xs, ys, rfl, hxs, hys⟩
    obtain ⟨words, rfl, hwords⟩ := Language.mem_kstar.mp hys
    exact Language.mem_kstar.mpr ⟨(c :: xs) :: words, rfl, List.forall_mem_cons.mpr ⟨hxs, hwords⟩⟩

/-- Any number of characters of a class. -/
theorem mem_language_many_one_iff :
    cs ∈ (many (one allowed)).language ↔ ∀ c ∈ cs, allowed c = true := by
  induction cs with
  | nil => exact iff_of_true (Language.nil_mem_kstar _) (by simp)
  | cons c cs ih =>
    rw [language, cons_mem_kstar_iff, List.forall_mem_cons, ← ih]
    constructor
    · rintro ⟨xs, ys, rfl, ⟨c', hc, heq⟩, hys⟩
      obtain ⟨rfl, rfl⟩ := List.cons.inj heq
      exact ⟨hc, hys⟩
    · rintro ⟨hc, hcs⟩
      exact ⟨[], cs, rfl, ⟨c, hc, rfl⟩, hcs⟩

/-- Further texts of a pattern, each after a separator. -/
theorem mem_language_many_seq_iff {sep : Char} :
    cs ∈ (many (seq (one (· == sep)) p)).language ↔
      ∃ parts : List (List Char),
        (∀ part ∈ parts, part ∈ p.language) ∧ cs = parts.flatMap (sep :: ·) := by
  rw [language, Language.mem_kstar]
  constructor
  · rintro ⟨words, rfl, hwords⟩
    induction words with
    | nil => exact ⟨[], by simp, rfl⟩
    | cons word words ih =>
      obtain ⟨hword, hrest⟩ := List.forall_mem_cons.mp hwords
      obtain ⟨parts, hparts, hflat⟩ := ih hrest
      obtain ⟨_, ⟨c, hc, rfl⟩, part, hpart, rfl⟩ := mem_language_seq_iff.mp hword
      obtain rfl : c = sep := by simpa using hc
      exact ⟨part :: parts, List.forall_mem_cons.mpr ⟨hpart, hparts⟩, by simp [hflat]⟩
  · rintro ⟨parts, hparts, rfl⟩
    refine ⟨parts.map (sep :: ·), List.flatMap_def, fun word hword => ?_⟩
    obtain ⟨part, hpart, rfl⟩ := List.mem_map.mp hword
    exact mem_language_seq_iff.mpr
      ⟨[sep], ⟨sep, by simp, rfl⟩, part, hparts part hpart, rfl⟩

/-- Texts of a pattern with separators between them, none of which has a separator inside. -/
theorem mem_language_separated_iff {sep : Char} (hsep : ∀ part ∈ p.language, sep ∉ part) :
    cs ∈ (separated sep p).language ↔ ∀ part ∈ pieces sep cs, part ∈ p.language := by
  rw [separated, mem_language_seq_iff]
  constructor
  · rintro ⟨first, hfirst, _, hmany, rfl⟩
    obtain ⟨rest, hrest, rfl⟩ := mem_language_many_seq_iff.mp hmany
    have hall : ∀ part ∈ first :: rest, part ∈ p.language :=
      List.forall_mem_cons.mpr ⟨hfirst, hrest⟩
    rwa [pieces_append_flatMap fun part hpart => hsep part (hall part hpart)]
  · intro h
    obtain ⟨first, rest, hpieces⟩ := List.exists_cons_of_ne_nil (pieces_ne_nil sep cs)
    rw [hpieces, List.forall_mem_cons] at h
    exact ⟨first, h.1, rest.flatMap (sep :: ·), mem_language_many_seq_iff.mpr ⟨rest, h.2, rfl⟩,
      (eq_of_pieces hpieces).symm⟩

/-! ### Reading a text -/

theorem acceptsEmpty_iff : p.acceptsEmpty = true ↔ [] ∈ p.language := by
  induction p with
  | never => simp [acceptsEmpty, language]
  | nothing => simp [acceptsEmpty, language]
  | one allowed => simp [acceptsEmpty, mem_language_one_iff]
  | seq p q ihp ihq => simp [acceptsEmpty, language, nil_mem_mul_iff, ihp, ihq]
  | either p q ihp ihq => simp [acceptsEmpty, mem_language_either_iff, ihp, ihq]
  | many p => simp [acceptsEmpty, language, Language.nil_mem_kstar]

/-- What may follow a character are the texts that are described with it in front. -/
theorem mem_language_after_iff : cs ∈ (p.after c).language ↔ c :: cs ∈ p.language := by
  induction p generalizing cs with
  | never => rfl
  | nothing => simp [after, language]
  | one allowed =>
    rw [after, mem_language_one_iff]
    by_cases hc : allowed c <;> simp [hc, language]
  | seq p q ihp ihq =>
    have hfirst : cs ∈ (p.after c).language * q.language ↔
        ∃ xs ys, xs ++ ys = cs ∧ c :: xs ∈ p.language ∧ ys ∈ q.language := by
      simp only [Language.mem_mul, ihp]
      exact ⟨fun ⟨xs, hxs, ys, hys, h⟩ => ⟨xs, ys, h, hxs, hys⟩,
        fun ⟨xs, ys, h, hxs, hys⟩ => ⟨xs, hxs, ys, hys, h⟩⟩
    rw [after, language, cons_mem_mul_iff, ← hfirst, ← acceptsEmpty_iff, ← ihq]
    by_cases hempty : p.acceptsEmpty = true
    · rw [if_pos hempty, language_orElse, language_andThen, Language.mem_add]
      simp [hempty]
    · rw [if_neg hempty, language_andThen]
      simp [hempty]
  | either p q ihp ihq =>
    rw [after, language_orElse, Language.mem_add, ihp, ihq, mem_language_either_iff]
  | many p ihp =>
    rw [after, language_andThen, language, cons_mem_kstar_iff]
    simp only [Language.mem_mul, ihp]
    exact ⟨fun ⟨xs, hxs, ys, hys, h⟩ => ⟨xs, ys, h, hxs, hys⟩,
      fun ⟨xs, ys, h, hxs, hys⟩ => ⟨xs, hxs, ys, hys, h⟩⟩

/-- A pattern accepts exactly the texts that it describes. -/
theorem accepts_iff : p.accepts cs = true ↔ cs ∈ p.language := by
  induction cs generalizing p with
  | nil => rw [accepts, acceptsEmpty_iff]
  | cons c cs ih => rw [accepts, ih, mem_language_after_iff]

end ProcessPlan.Text.Pattern
