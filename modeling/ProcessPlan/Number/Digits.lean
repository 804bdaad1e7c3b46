/-!
# Digits and signs

Numbers in a base of at most sixteen, as lists of characters.

## Main definitions

* `Digits.value?`: the value of a digit
* `Digits.number`: the number that the values of digits denote
* `Digits.read?`: the number of a text that consists of digits
* `Digits.sign`: a sign at the front of a text
* `Digits.decimal?`: the integer of a text in decimal, perhaps with a sign
-/

namespace ProcessPlan.Digits

/-- The value of a digit. -/
def value? (base : Nat) (c : Char) : Option Nat :=
  let n := c.toNat
  let value :=
    if c.isDigit then n - '0'.toNat
    else if 'a' ≤ c ∧ c ≤ 'f' then n - 'a'.toNat + 10
    else if 'A' ≤ c ∧ c ≤ 'F' then n - 'A'.toNat + 10
    else base
  if value < base then some value else none

/-- The number that the values of digits denote. -/
def number (base : Nat) (digits : List Nat) : Nat := digits.foldl (fun n d => n * base + d) 0

/-- The number of a text that consists of digits, at least one. -/
def read? (base : Nat) (cs : List Char) : Option Nat :=
  if cs.isEmpty then none else (cs.mapM (value? base)).map (number base)

/-- A sign at the front: whether it is a minus, and what follows. -/
def sign : List Char → Bool × List Char
  | '-' :: rest => (true, rest)
  | '+' :: rest => (false, rest)
  | cs => (false, cs)

/-- A number with its sign. -/
def signed (negative : Bool) (n : Nat) : Int := if negative then -(n : Int) else n

/-- The integer of a text in decimal, perhaps with a sign. -/
def decimal? (cs : List Char) : Option Int :=
  (read? 10 (sign cs).2).map (signed (sign cs).1)

example : decimal? "-007".toList = some (-7) := by decide +kernel
example : decimal? "+".toList = none := by decide +kernel
example : decimal? "--1".toList = none := by decide +kernel

end ProcessPlan.Digits
