import ProcessPlan.Metadata.Grammar
import ProcessPlan.Proofs.Text.Bytes
import ProcessPlan.Proofs.Text.Pattern

/-!
# The rules for names, domains and keys

The rules that names, domains and keys are checked by, said of the characters of a text and without
patterns. Every character that a rule allows is ASCII, so counting characters counts bytes.

## Main definitions

* `Metadata.IsName`, `Metadata.IsDomain`, `Metadata.IsKey`, `Metadata.IsLabelValue`: the rules

## Main results

* `Metadata.mem_language_namePattern_iff`, `Metadata.mem_language_domainPattern_iff`: what the
  patterns describe
* `Metadata.checkName_iff`, `Metadata.checkDomain_iff`, `Metadata.checkLabelValue_iff`: the checks
* `Metadata.keyFault?_eq_none_iff`: a key has no fault exactly if it keeps the rule
-/

namespace ProcessPlan.Metadata

/-- Characters of one class, with one of a second class at both ends. -/
def Framed (inside ends : Char → Bool) (cs : List Char) : Prop :=
  cs.all inside = true ∧ cs.head?.any ends = true ∧ cs.getLast?.any ends = true

instance (inside ends : Char → Bool) (cs : List Char) : Decidable (Framed inside ends cs) :=
  inferInstanceAs (Decidable (_ ∧ _))

/-- The rule for names. -/
def IsName (cs : List Char) : Prop := cs.length ≤ 63 ∧ Framed isNameChar isAlnum cs

instance (cs : List Char) : Decidable (IsName cs) := inferInstanceAs (Decidable (_ ∧ _))

/-- The rule for the domain in front of a name. -/
def IsDomain (cs : List Char) : Prop :=
  cs.length ≤ 253 ∧ ∀ part ∈ Text.pieces '.' cs, Framed isDomainChar isLowerAlnum part

instance (cs : List Char) : Decidable (IsDomain cs) := inferInstanceAs (Decidable (_ ∧ _))

/-- The rule for keys. The first slash ends the domain. -/
def IsKey (key : String) : Prop :=
  match Text.cutChars '/' key.toList with
  | some (domain, name) => IsDomain domain ∧ IsName name
  | none => IsName key.toList

instance (key : String) : Decidable (IsKey key) := by
  unfold IsKey
  split <;> infer_instance

/-- The rule for the value of a label. -/
def IsLabelValue (value : String) : Prop := value = "" ∨ IsName value.toList

instance (value : String) : Decidable (IsLabelValue value) := inferInstanceAs (Decidable (_ ∨ _))

variable {inside ends : Char → Bool} {c : Char} {cs : List Char} {s : String}

/-! ### The characters -/

theorem isNameChar_of_isAlnum (h : isAlnum c = true) : isNameChar c = true := by
  simp [isNameChar, h]

theorem isDomainChar_of_isLowerAlnum (h : isLowerAlnum c = true) : isDomainChar c = true := by
  simp [isDomainChar, h]

/-- Letters and digits are capital letters, small letters and digits. -/
theorem isAlnum_eq (c : Char) : isAlnum c = (c.isUpper || c.isLower || c.isDigit) := rfl

/-- They lie in three ranges of ASCII. -/
theorem isAlnum_iff : isAlnum c = true ↔
    ('A' ≤ c ∧ c ≤ 'Z') ∨ ('a' ≤ c ∧ c ≤ 'z') ∨ ('0' ≤ c ∧ c ≤ '9') := by
  show (decide ('A' ≤ c ∧ c ≤ 'Z') || (decide ('a' ≤ c) && decide (c ≤ 'z')) ||
    (decide ('0' ≤ c) && decide (c ≤ '9'))) = true ↔ _
  simp only [Bool.or_eq_true, Bool.and_eq_true, decide_eq_true_eq, or_assoc]

theorem isNameChar_iff : isNameChar c = true ↔
    ('A' ≤ c ∧ c ≤ 'Z') ∨ ('a' ≤ c ∧ c ≤ 'z') ∨ ('0' ≤ c ∧ c ≤ '9') ∨
      c = '-' ∨ c = '_' ∨ c = '.' := by
  simp only [isNameChar, Bool.or_eq_true, isAlnum_iff, beq_iff_eq, or_assoc]

theorem isLowerAlnum_iff : isLowerAlnum c = true ↔ ('a' ≤ c ∧ c ≤ 'z') ∨ ('0' ≤ c ∧ c ≤ '9') := by
  show ((decide ('a' ≤ c) && decide (c ≤ 'z')) ||
    (decide ('0' ≤ c) && decide (c ≤ '9'))) = true ↔ _
  simp only [Bool.or_eq_true, Bool.and_eq_true, decide_eq_true_eq]

theorem isDomainChar_iff : isDomainChar c = true ↔
    ('a' ≤ c ∧ c ≤ 'z') ∨ ('0' ≤ c ∧ c ≤ '9') ∨ c = '-' := by
  simp only [isDomainChar, Bool.or_eq_true, isLowerAlnum_iff, beq_iff_eq, or_assoc]

theorem toNat_lt_of_isNameChar (h : isNameChar c = true) : c.toNat < 128 := by
  simp only [isNameChar, Bool.or_eq_true, isAlnum_iff, beq_iff_eq, Char.le_def,
    UInt32.le_iff_toNat_le] at h
  rcases h with ((h | rfl) | rfl) | rfl
  · have hZ : 'Z'.val.toNat < 128 := by decide
    have hz : 'z'.val.toNat < 128 := by decide
    have h9 : '9'.val.toNat < 128 := by decide
    show c.val.toNat < 128
    omega
  all_goals decide

theorem isNameChar_of_isDomainChar (h : isDomainChar c = true) : isNameChar c = true := by
  simp only [isDomainChar, isLowerAlnum, isNameChar, isAlnum_eq, Bool.or_eq_true] at h ⊢
  tauto

/-! ### What the patterns describe -/

theorem Framed.forall_mem (h : Framed inside ends cs) : ∀ c ∈ cs, inside c = true :=
  List.all_eq_true.mp h.1

/-- Framed characters are at least one, all of the one class, and the first and the last of the
other. -/
theorem framed_iff_forall : Framed inside ends cs ↔ cs ≠ [] ∧ (∀ c ∈ cs, inside c = true) ∧
    ∀ c, cs.head? = some c ∨ cs.getLast? = some c → ends c = true := by
  cases cs with
  | nil => simp [Framed]
  | cons first rest =>
    simp only [Framed, List.all_eq_true, List.head?_cons, Option.any_some, List.getLast?_cons]
    simp [or_imp, forall_and]

/-- Framed characters are one that may stand at an end, or two of them with others between. -/
theorem framed_iff (hends : ∀ c, ends c = true → inside c = true) : Framed inside ends cs ↔
    (∃ c, ends c = true ∧ cs = [c]) ∨
      ∃ first mid last, ends first = true ∧ (∀ c ∈ mid, inside c = true) ∧ ends last = true ∧
        cs = first :: (mid ++ [last]) := by
  have hgetLast (first last : Char) (mid : List Char) :
      (first :: (mid ++ [last])).getLast? = some last := by
    rw [← List.cons_append, List.getLast?_concat]
  constructor
  · rintro ⟨hall, hfirst, hlast⟩
    cases cs with
    | nil => exact absurd hfirst (by simp)
    | cons first rest =>
      rcases List.eq_nil_or_concat rest with rfl | ⟨mid, last, rfl⟩
      · exact Or.inl ⟨first, by simpa using hfirst, rfl⟩
      · rw [List.concat_eq_append] at hall hlast ⊢
        refine Or.inr ⟨first, mid, last, by simpa using hfirst, fun c hc => ?_, ?_, rfl⟩
        · exact List.all_eq_true.mp hall c (by simp [hc])
        · simpa [hgetLast] using hlast
  · rintro (⟨c, hc, rfl⟩ | ⟨first, mid, last, hfirst, hmid, hlast, rfl⟩)
    · simp [Framed, hc, hends c hc]
    · refine ⟨List.all_eq_true.mpr fun c hc => ?_, by simpa using hfirst, ?_⟩
      · rcases List.mem_cons.mp hc with rfl | hc
        · exact hends c hfirst
        · rcases List.mem_append.mp hc with hc | hc
          · exact hmid c hc
          · rw [List.mem_singleton.mp hc]
            exact hends last hlast
      · simpa [hgetLast] using hlast

open Text.Pattern

/-- The pattern of a name describes the framed texts. -/
theorem mem_language_namePattern_iff :
    cs ∈ namePattern.language ↔ Framed isNameChar isAlnum cs := by
  rw [framed_iff fun _ => isNameChar_of_isAlnum]
  simp only [namePattern, mem_language_seq_iff, mem_language_optional_iff, mem_language_one_iff,
    mem_language_many_one_iff]
  constructor
  · rintro ⟨_, rfl | ⟨_, ⟨first, hfirst, rfl⟩, mid, hmid, rfl⟩, _, ⟨last, hlast, rfl⟩, rfl⟩
    · exact Or.inl ⟨last, hlast, rfl⟩
    · exact Or.inr ⟨first, mid, last, hfirst, hmid, hlast, rfl⟩
  · rintro (⟨c, hc, rfl⟩ | ⟨first, mid, last, hfirst, hmid, hlast, rfl⟩)
    · exact ⟨[], Or.inl rfl, [c], ⟨c, hc, rfl⟩, rfl⟩
    · exact ⟨first :: mid, Or.inr ⟨[first], ⟨first, hfirst, rfl⟩, mid, hmid, rfl⟩, [last],
        ⟨last, hlast, rfl⟩, rfl⟩

/-- The pattern of a part of a domain describes the framed texts. -/
theorem mem_language_partPattern_iff :
    cs ∈ partPattern.language ↔ Framed isDomainChar isLowerAlnum cs := by
  rw [framed_iff fun _ => isDomainChar_of_isLowerAlnum]
  simp only [partPattern, mem_language_seq_iff, mem_language_optional_iff, mem_language_one_iff,
    mem_language_many_one_iff]
  constructor
  · rintro ⟨_, ⟨first, hfirst, rfl⟩, _, rfl | ⟨mid, hmid, _, ⟨last, hlast, rfl⟩, rfl⟩, rfl⟩
    · exact Or.inl ⟨first, hfirst, rfl⟩
    · exact Or.inr ⟨first, mid, last, hfirst, hmid, hlast, rfl⟩
  · rintro (⟨c, hc, rfl⟩ | ⟨first, mid, last, hfirst, hmid, hlast, rfl⟩)
    · exact ⟨[c], ⟨c, hc, rfl⟩, [], Or.inl rfl, rfl⟩
    · exact ⟨[first], ⟨first, hfirst, rfl⟩, mid ++ [last],
        Or.inr ⟨mid, hmid, [last], ⟨last, hlast, rfl⟩, rfl⟩, rfl⟩

theorem Framed.not_mem_point (h : Framed isDomainChar isLowerAlnum cs) : '.' ∉ cs := fun hmem =>
  absurd (h.forall_mem '.' hmem) (by decide)

/-- The pattern of a domain describes framed parts with points between them. -/
theorem mem_language_domainPattern_iff : cs ∈ domainPattern.language ↔
    ∀ part ∈ Text.pieces '.' cs, Framed isDomainChar isLowerAlnum part := by
  simp only [domainPattern, ← mem_language_partPattern_iff]
  exact mem_language_separated_iff fun part hpart =>
    (mem_language_partPattern_iff.mp hpart).not_mem_point

/-! ### The checks -/

theorem keepsRule_iff {pattern : Text.Pattern} {limit : Nat} : keepsRule pattern limit s = true ↔
    s ≠ "" ∧ s.utf8ByteSize ≤ limit ∧ s.toList ∈ pattern.language := by
  rw [keepsRule, Bool.and_eq_true, Bool.and_eq_true, accepts_iff, and_assoc]
  simp

theorem Framed.ne_nil (h : Framed inside ends cs) : cs ≠ [] := by
  rintro rfl
  exact absurd h.2.1 (by simp)

theorem utf8ByteSize_of_isNameChar (h : ∀ c ∈ s.toList, isNameChar c = true) :
    s.utf8ByteSize = s.toList.length :=
  Text.utf8ByteSize_of_ascii fun c hc => toNat_lt_of_isNameChar (h c hc)

/-- A text of a pattern with a limit, if all that the pattern describes is ASCII. -/
theorem keepsRule_iff_of_ascii {pattern : Text.Pattern} {limit : Nat} {rule : List Char → Prop}
    (hrule : ∀ cs, cs ∈ pattern.language ↔ rule cs) (hnil : ¬ rule [])
    (hchars : ∀ cs, rule cs → ∀ c ∈ cs, isNameChar c = true) :
    keepsRule pattern limit s = true ↔ s.toList.length ≤ limit ∧ rule s.toList := by
  rw [keepsRule_iff, hrule]
  constructor
  · rintro ⟨-, hsize, hs⟩
    exact ⟨utf8ByteSize_of_isNameChar (hchars _ hs) ▸ hsize, hs⟩
  · rintro ⟨hlength, hs⟩
    refine ⟨?_, (utf8ByteSize_of_isNameChar (hchars _ hs)).symm ▸ hlength, hs⟩
    rintro rfl
    exact hnil hs

theorem checkName_iff : checkName s = true ↔ IsName s.toList :=
  keepsRule_iff_of_ascii (fun _ => mem_language_namePattern_iff) (fun h => h.ne_nil rfl)
    fun _ h => h.forall_mem

example : checkName "tier\n" = false := by decide

/-- The characters of a domain are those of its parts, and points. -/
theorem isNameChar_of_mem_domain
    (h : ∀ part ∈ Text.pieces '.' cs, Framed isDomainChar isLowerAlnum part) :
    ∀ c ∈ cs, isNameChar c = true := by
  intro c hc
  obtain ⟨first, rest, hpieces⟩ := List.exists_cons_of_ne_nil (Text.pieces_ne_nil '.' cs)
  have hpart : ∀ part ∈ first :: rest, ∀ c ∈ part, isNameChar c = true := fun part hmem c hc =>
    isNameChar_of_isDomainChar ((h part (hpieces ▸ hmem)).forall_mem c hc)
  rw [Text.eq_of_pieces hpieces, List.mem_append, List.mem_flatMap] at hc
  rcases hc with hc | ⟨part, hmem, hc⟩
  · exact hpart first List.mem_cons_self c hc
  · rcases List.mem_cons.mp hc with rfl | hc
    · decide
    · exact hpart part (List.mem_cons_of_mem _ hmem) c hc

theorem checkDomain_iff : checkDomain s = true ↔ IsDomain s.toList :=
  keepsRule_iff_of_ascii (fun _ => mem_language_domainPattern_iff)
    (fun h => (h [] (by simp [Text.pieces])).ne_nil rfl) fun _ => isNameChar_of_mem_domain

theorem checkLabelValue_iff : checkLabelValue s = true ↔ IsLabelValue s := by
  rw [checkLabelValue, Bool.or_eq_true, checkName_iff, String.isEmpty_iff]
  rfl

/-- A key has no fault exactly if it keeps the rule for keys. -/
theorem keyFault?_eq_none_iff {key : String} : keyFault? key = none ↔ IsKey key := by
  unfold keyFault? IsKey Text.cut
  cases Text.cutChars '/' key.toList with
  | none =>
    rw [← checkName_iff]
    cases checkName key <;> simp
  | some parts =>
    obtain ⟨domain, name⟩ := parts
    have hdomain := checkDomain_iff (s := String.ofList domain)
    have hname := checkName_iff (s := String.ofList name)
    rw [String.toList_ofList] at hdomain hname
    simp only [← hdomain, ← hname, Option.map_some]
    cases checkDomain (String.ofList domain) <;> cases checkName (String.ofList name) <;> simp

example : keyFault? "a.b-/name" = some (.badDomain "a.b-/name") := by decide +kernel

end ProcessPlan.Metadata
