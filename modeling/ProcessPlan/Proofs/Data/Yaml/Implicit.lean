import Mathlib.Data.List.TakeWhile
import ProcessPlan.Data.Yaml.Implicit
import ProcessPlan.Proofs.Data.Json

/-!
# Plain texts that look like integers

The decimal form of an integer of at most 64 bits is among the texts that are not left plain, so
that no plain text is written like such an integer.

## Main results

* `Binary64.ofDecimal_eq_finite`: a natural number of at most 64 bits is read as a finite number
* `Yaml.isImplicit_toString`: the decimal form of an integer is read as something else than a text
-/

namespace ProcessPlan

namespace Binary64

theorem floorLog2_one_le {n : Nat} (h : n < UInt64.size) : floorLog2 n 1 ≤ 63 := by
  have hlog : n.log2 ≤ 63 := by
    by_cases hn : n = 0
    · subst hn
      decide
    · exact Nat.le_of_lt_succ ((Nat.log2_lt hn).2 h)
  have hone : (1 : Nat).log2 = 0 := by decide
  unfold floorLog2
  dsimp only
  rw [hone]
  split <;> omega

/-- A natural number of at most 64 bits is far from the greatest finite value. -/
theorem ofFraction_one_eq_finite (negative : Bool) {n : Nat} (h : n < UInt64.size) :
    ∃ m e, ofFraction negative n 1 = .finite negative m e := by
  have he : max (floorLog2 n 1 - 52) minExponent ≤ 11 := by
    have hlog := floorLog2_one_le h
    unfold minExponent
    omega
  unfold ofFraction maxExponent
  dsimp only
  generalize max (floorLog2 n 1 - 52) minExponent = e at he
  generalize roundDiv _ _ = m
  split
  · rw [if_neg (by omega)]
    exact ⟨_, _, rfl⟩
  · rw [if_neg (by omega)]
    exact ⟨_, _, rfl⟩

theorem ofDecimal_eq_finite (negative : Bool) {n : Nat} (h : n < UInt64.size) :
    ∃ m e, ofDecimal negative n 0 = .finite negative m e := by
  have hlength : decimalLength n ≤ 20 := by
    unfold decimalLength
    split
    · decide
    · exact (Nat.length_toDigits_le_iff (by decide) (by decide)).2 (by rw [UInt64.size] at h; omega)
  unfold ofDecimal
  dsimp only
  split
  · exact ⟨_, _, rfl⟩
  · rw [if_neg (by omega)]
    simpa [powerOfTen] using ofFraction_one_eq_finite negative h

end Binary64

namespace Digits

theorem value?_digitChar : ∀ d < 10, value? 10 (Nat.digitChar d) = some d := by decide +kernel

theorem number_concat (base : Nat) (digits : List Nat) (d : Nat) :
    number base (digits ++ [d]) = number base digits * base + d := by
  rw [number, List.foldl_append]
  rfl

/-- The digits of a number in decimal have values, which denote the number. -/
theorem exists_mapM_value?_toDigits (n : Nat) :
    ∃ digits, (Nat.toDigits 10 n).mapM (value? 10) = some digits ∧ number 10 digits = n := by
  induction n using Nat.strongRecOn with
  | ind n ih =>
    rw [Nat.toDigits_eq_if (by decide)]
    split
    · next hn =>
      exact ⟨[n], by simp [value?_digitChar n hn], by simp [number]⟩
    · next hn =>
      obtain ⟨digits, hdigits, hnumber⟩ := ih (n / 10) (by omega)
      refine ⟨digits ++ [n % 10], ?_, ?_⟩
      · simp [List.mapM_append, hdigits, value?_digitChar (n % 10) (by omega)]
      · rw [number_concat, hnumber]
        omega

/-- Digits do not start with a sign. -/
theorem sign_toDigits (n : Nat) : sign (Nat.toDigits 10 n) = (false, Nat.toDigits 10 n) := by
  cases hdigits : Nat.toDigits 10 n with
  | nil => rfl
  | cons c rest =>
    have hc : c.isDigit := Json.isDigit_of_mem_toDigits (hdigits ▸ List.mem_cons_self)
    unfold sign
    split
    · next heq =>
      cases heq
      exact absurd hc (by decide)
    · next heq =>
      cases heq
      exact absurd hc (by decide)
    · rfl

theorem read?_toDigits (n : Nat) : read? 10 (Nat.toDigits 10 n) = some n := by
  obtain ⟨digits, hdigits, hnumber⟩ := exists_mapM_value?_toDigits n
  rw [read?, if_neg (by simp [Nat.toDigits_ne_nil]), hdigits, Option.map_some, hnumber]

end Digits

namespace Yaml

theorem isFiniteDecimal_of_digits {cs body : List Char} {negative : Bool} {n : Nat}
    (hsign : Digits.sign cs = (negative, body)) (hbody : body = Nat.toDigits 10 n)
    (h : n < UInt64.size) : isFiniteDecimal cs := by
  have hdigits : ∀ c ∈ body, c.isDigit := fun c hc => Json.isDigit_of_mem_toDigits (hbody ▸ hc)
  obtain ⟨m, e, hfinite⟩ := Binary64.ofDecimal_eq_finite negative h
  unfold isFiniteDecimal
  rw [hsign]
  dsimp only
  have htake : body.takeWhile Char.isDigit = body := List.takeWhile_eq_self_iff.2 hdigits
  have hdrop : body.dropWhile Char.isDigit = [] := List.dropWhile_eq_nil_iff.2 hdigits
  rw [htake, hdrop]
  simp [hbody, Digits.read?_toDigits, exponent?, hfinite]

/-- The decimal form of an integer is not read as a text. -/
theorem isImplicit_toString {n : Int} (h : n.natAbs < UInt64.size) : isImplicit (toString n) := by
  have hfinite : isFiniteDecimal (toString n).toList := by
    cases n with
    | ofNat k =>
      rw [Json.toList_toString_ofNat]
      exact isFiniteDecimal_of_digits (Digits.sign_toDigits k) rfl h
    | negSucc k =>
      rw [Json.toList_toString_negSucc]
      exact isFiniteDecimal_of_digits rfl rfl h
  unfold isImplicit
  dsimp only
  rw [hfinite, Bool.or_true, Bool.true_or]

end Yaml

end ProcessPlan
