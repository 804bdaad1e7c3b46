/-!
# Integers within a range

The numbers of a descriptor are words of 16, 32 or 64 bits. An integer outside the range of such a
word has none; it is never wrapped or clamped.

## Main definitions

* `Range.word16?`, `Range.word32?`, `Range.signed64?`: the word of an integer

## Main results

* `Range.word16?_eq_some_iff` and its siblings: the word of an integer has just that value
-/

namespace ProcessPlan.Range

/-- The word of an integer from 0 to 65535. -/
def word16? (n : Int) : Option UInt16 :=
  if 0 ≤ n ∧ n < 65536 then some (UInt16.ofNat n.toNat) else none

/-- The word of an integer from 0 to 4294967295. -/
def word32? (n : Int) : Option UInt32 :=
  if 0 ≤ n ∧ n < 4294967296 then some (UInt32.ofNat n.toNat) else none

/-- The signed word of an integer within 64 bits. -/
def signed64? (n : Int) : Option Int64 :=
  if -9223372036854775808 ≤ n ∧ n < 9223372036854775808 then some (Int64.ofInt n) else none

theorem word16?_eq_some_iff {n : Int} {w : UInt16} : word16? n = some w ↔ n = w.toNat := by
  have hw := w.toNat_lt
  unfold word16?
  split
  · rename_i h
    rw [Option.some.injEq, ← UInt16.toNat_inj, UInt16.toNat_ofNat']
    omega
  · simp only [reduceCtorEq, false_iff]
    omega

theorem word32?_eq_some_iff {n : Int} {w : UInt32} : word32? n = some w ↔ n = w.toNat := by
  have hw := w.toNat_lt
  unfold word32?
  split
  · rename_i h
    rw [Option.some.injEq, ← UInt32.toNat_inj, UInt32.toNat_ofNat']
    omega
  · simp only [reduceCtorEq, false_iff]
    omega

theorem signed64?_eq_some_iff {n : Int} {w : Int64} : signed64? n = some w ↔ n = w.toInt := by
  have hl := w.le_toInt
  have hu := w.toInt_lt
  unfold signed64?
  split
  · rename_i h
    rw [Option.some.injEq, ← Int64.toInt_inj, Int64.toInt_ofInt_of_le h.1 h.2, eq_comm]
  · simp only [reduceCtorEq, false_iff]
    omega

end ProcessPlan.Range
