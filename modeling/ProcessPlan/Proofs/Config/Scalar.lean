import ProcessPlan.Config.Scalar
import ProcessPlan.Proofs.Success

/-!
# What numbers are read as

A number is read exactly where the value is an integer in the range of its field, and then as that
integer: nothing is wrapped, cut or made up.

## Main results

* `Config.readPort_eq_ok_iff`, `Config.readCount_eq_ok_iff`, `Config.readSigned_eq_ok_iff`: the
  value that a number is read from
* `Config.optional_eq_ok_iff`: the same where the value may be missing
* `Config.exists_readPort_eq_ok_iff`, `Config.exists_readCount_eq_ok_iff`: the values that can be
  read
-/

namespace ProcessPlan.Config

open Kdl (Node Value)

variable {field : String} {value : Value}

theorem readNumber_eq_ok_iff {α : Type} {range : NumberRange} {ofInt? : Int → Option α} {n : α} :
    readNumber range ofInt? field value = .ok n ↔ ∃ i, value = .int i ∧ ofInt? i = some n := by
  rw [readNumber]
  cases value with
  | int i => cases h : ofInt? i <;> simp [Value.int?, h]
  | _ => simp [Value.int?]

theorem readPort_eq_ok_iff {port : UInt16} :
    readPort field value = .ok port ↔ value = .int port.toNat := by
  simp [readPort, readNumber_eq_ok_iff, Range.word16?_eq_some_iff]

theorem readCount_eq_ok_iff {count : UInt32} :
    readCount field value = .ok count ↔ value = .int count.toNat := by
  simp [readCount, readNumber_eq_ok_iff, Range.word32?_eq_some_iff]

theorem readSigned_eq_ok_iff {n : Int64} :
    readSigned field value = .ok n ↔ value = .int n.toInt := by
  simp [readSigned, readNumber_eq_ok_iff, Range.signed64?_eq_some_iff]

/-- Where a value may be missing, what is read shows it, if reading a value shows that value. -/
theorem optional_eq_ok_iff {α β : Type} {read : α → Read β} {view : β → α}
    (hread : ∀ a b, read a = .ok b ↔ a = view b) {source : Option α} {result : Option β} :
    optional read source = .ok result ↔ result.map view = source := by
  cases source with
  | none =>
    rw [Option.map_eq_none_iff]
    constructor
    · intro h
      exact (Except.ok.inj h).symm
    · rintro rfl
      rfl
  | some a =>
    simp only [optional, map_eq_ok_iff, hread, Option.map_eq_some_iff]
    constructor
    · rintro ⟨b, hb, rfl⟩
      exact ⟨b, rfl, hb.symm⟩
    · rintro ⟨b, rfl, hb⟩
      exact ⟨b, hb.symm, rfl⟩

/-- A value that is an integer below a bound, and not negative. -/
def IsBelow (bound : Nat) (value : Value) : Prop := ∃ n : Nat, n < bound ∧ value = .int n

/-- A port can be read exactly from the integers of 16 bits. -/
theorem exists_readPort_eq_ok_iff :
    (∃ port, readPort field value = .ok port) ↔ IsBelow 65536 value := by
  simp only [readPort_eq_ok_iff]
  constructor
  · rintro ⟨port, rfl⟩
    exact ⟨port.toNat, port.toNat_lt, rfl⟩
  · rintro ⟨n, hn, rfl⟩
    exact ⟨.ofNat n, by rw [UInt16.toNat_ofNat_of_lt' hn]⟩

/-- A count can be read exactly from the integers of 32 bits. -/
theorem exists_readCount_eq_ok_iff :
    (∃ count, readCount field value = .ok count) ↔ IsBelow 4294967296 value := by
  simp only [readCount_eq_ok_iff]
  constructor
  · rintro ⟨count, rfl⟩
    exact ⟨count.toNat, count.toNat_lt, rfl⟩
  · rintro ⟨n, hn, rfl⟩
    exact ⟨.ofNat n, by rw [UInt32.toNat_ofNat_of_lt' hn]⟩

end ProcessPlan.Config
