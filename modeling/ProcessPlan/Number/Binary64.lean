/-!
# Binary floating point with 64 bits

A `Binary64` is a value of the IEEE 754 format, with a finite value held as an exact integer
significand times a power of two. A decimal is read to the nearest value, a tie going to the even
significand, by integer arithmetic only.

## Main definitions

* `Binary64`: the values
* `Binary64.ofDecimal`: the value nearest to `digits * 10 ^ exponent`
-/

namespace ProcessPlan

/-- A value of the format. A finite one is `significand * 2 ^ exponent` with its sign; it has at
most 53 bits, and exactly 53 unless its exponent is the least one, -1074. -/
inductive Binary64 where
  | nan
  | infinite (negative : Bool)
  | finite (negative : Bool) (significand : Nat) (exponent : Int)
deriving DecidableEq

/-- The number of digits of `n` in decimal, none for zero. -/
def decimalLength (n : Nat) : Nat := if n = 0 then 0 else (Nat.toDigits 10 n).length

namespace Binary64

/-- The least exponent of a finite value. -/
def minExponent : Int := -1074

/-- The greatest exponent of a finite value. -/
def maxExponent : Int := 971

/-- The least significand with 53 bits. -/
def leastFull : Nat := Nat.pow 2 52

/-- `2 ^ e` as a fraction. -/
def powerOfTwo (e : Int) : Nat × Nat := (Nat.pow 2 e.toNat, Nat.pow 2 (-e).toNat)

/-- `10 ^ e` as a fraction. -/
def powerOfTen (e : Int) : Nat × Nat := (Nat.pow 10 e.toNat, Nat.pow 10 (-e).toNat)

/-- The quotient rounded to the nearest integer, a tie going to the even one. -/
def roundDiv (num den : Nat) : Nat :=
  let q := num / den
  let twice := 2 * (num % den)
  if twice < den then q
  else if den < twice then q + 1
  else if q % 2 = 0 then q else q + 1

/-- The greatest `e` with `2 ^ e ≤ num / den`, for positive `num` and `den`. -/
def floorLog2 (num den : Nat) : Int :=
  let e : Int := (num.log2 : Int) - den.log2
  let (up, down) := powerOfTwo e
  if num * down < den * up then e - 1 else e

/-- The value nearest to the positive fraction `num / den`. -/
def ofFraction (negative : Bool) (num den : Nat) : Binary64 :=
  let e := max (floorLog2 num den - 52) minExponent
  let (up, down) := powerOfTwo e
  let m := roundDiv (num * down) (den * up)
  let (m, e) := if m = 2 * leastFull then (leastFull, e + 1) else (m, e)
  if maxExponent < e then .infinite negative else .finite negative m e

/-- The value nearest to `digits * 10 ^ exponent`. Decimals with more than 310 places before the
point are infinite and those with 330 zeros after it vanish, so no large power is ever formed. -/
def ofDecimal (negative : Bool) (digits : Nat) (exponent : Int) : Binary64 :=
  let places := (decimalLength digits : Int) + exponent
  if digits = 0 ∨ places < -330 then .finite negative 0 minExponent
  else if 310 < places then .infinite negative
  else
    let (up, down) := powerOfTen exponent
    ofFraction negative (digits * up) down

example : ofDecimal false 9007199254740993 0 = .finite false 4503599627370496 1 := by decide +kernel
example : ofDecimal false 1 400 = .infinite false := by decide +kernel
example : ofDecimal true 5 (-324) = .finite true 1 (-1074) := by decide +kernel

end Binary64

end ProcessPlan
