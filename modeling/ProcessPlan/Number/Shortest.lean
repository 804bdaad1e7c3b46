import ProcessPlan.Number.Binary64

/-!
# The shortest decimal of a binary value

Of all decimals that read back as a given finite value, `Binary64.shortest` takes one with the
fewest digits, and of those the nearest. The numbers that read back as `m * 2 ^ e` form an interval
around it; on the grid of the multiples of `10 ^ s`, only the two neighbours of the value need a
test, so the grids are tried from one digit up to seventeen.

## Main definitions

* `Binary64.Interval`: the reals that round to a value, scaled to integers
* `Binary64.shortest`: digits and exponent of the shortest decimal
* `Binary64.finiteText`: its notation, positional from `0.0001` up to below `1e16`
-/

namespace ProcessPlan.Binary64

/-- The reals that round to one value: from `low` to `high` around `mid`, each times `up / down`.
The ends belong to it if the significand is even. -/
structure Interval where
  low : Nat
  mid : Nat
  high : Nat
  up : Nat
  down : Nat
  closed : Bool

/-- The interval of `m * 2 ^ e`. Below a power of two the values lie twice as dense. -/
def Interval.around (m : Nat) (e : Int) : Interval :=
  let (up, down) := powerOfTwo (e - 2)
  let below := if m = leastFull ∧ minExponent < e then 1 else 2
  { low := 4 * m - below, mid := 4 * m, high := 4 * m + 2, up, down, closed := m % 2 == 0 }

/-- Whether `c * 10 ^ s` lies in the interval. -/
def Interval.contains (i : Interval) (c : Nat) (s : Int) : Bool :=
  let (tenUp, tenDown) := powerOfTen s
  let x := c * tenUp * i.down
  let unit := i.up * tenDown
  if i.closed then decide (i.low * unit ≤ x) && decide (x ≤ i.high * unit)
  else decide (i.low * unit < x) && decide (x < i.high * unit)

/-- The multiple of `10 ^ s` in the interval that is nearest to its middle, if there is one. -/
def Interval.onGrid (i : Interval) (s : Int) : Option Nat :=
  let (tenUp, tenDown) := powerOfTen s
  let num := i.mid * i.up * tenDown
  let den := i.down * tenUp
  let c := num / den
  match i.contains c s, i.contains (c + 1) s with
  | true, false => some c
  | false, true => some (c + 1)
  | true, true => some (roundDiv num den)
  | false, false => none

/-- The greatest `k` with `10 ^ k ≤ num / den`, for positive `num` and `den`. -/
def floorLog10 (num den : Nat) : Int :=
  if den ≤ num then (decimalLength (num / den) : Int) - 1
  else 0 - (decimalLength ((den - 1) / num) : Int)

/-- A number without the zeros at its end, and their count added to an exponent. -/
def stripZeros : Nat → Nat → Int → Nat × Int
  | 0, c, s => (c, s)
  | fuel + 1, c, s => if c ≠ 0 ∧ c % 10 = 0 then stripZeros fuel (c / 10) (s + 1) else (c, s)

/-- The first grid, from `n` digits on, that has a multiple in the interval. -/
def searchGrid (i : Interval) (k : Int) : Nat → Nat → Nat × Int
  | 0, _ => (0, 0)
  | fuel + 1, n =>
    let s := k - n + 1
    match i.onGrid s with
    | some c => stripZeros 20 c s
    | none => searchGrid i k fuel (n + 1)

/-- Digits and exponent of the shortest decimal of `m * 2 ^ e`, for a positive significand `m`. -/
def shortest (m : Nat) (e : Int) : Nat × Int :=
  let i := Interval.around m e
  searchGrid i (floorLog10 (i.mid * i.up) i.down) 17 1

/-- Digits with the point after the first `places` of them; at least one digit on each side. -/
def positional (digits : List Char) (places : Int) : List Char :=
  if places ≤ 0 then ['0', '.'] ++ List.replicate (-places).toNat '0' ++ digits
  else
    let n := places.toNat
    if digits.length ≤ n then digits ++ List.replicate (n - digits.length) '0' ++ ['.', '0']
    else digits.take n ++ ['.'] ++ digits.drop n

/-- Digits with the point after the first and a power of ten. -/
def scientific (digits : List Char) (power : Int) : List Char :=
  let fraction := match digits with
    | first :: second :: rest => first :: '.' :: second :: rest
    | _ => digits
  fraction ++ ['e'] ++ (toString power).toList

/-- The shortest decimal of a finite value: positional from `0.0001` up to below `1e16`, and then
with a digit after the point; otherwise with a power of ten. -/
def finiteText (negative : Bool) (m : Nat) (e : Int) : String :=
  let body :=
    if m = 0 then ['0', '.', '0']
    else
      let (c, s) := shortest m e
      let digits := Nat.toDigits 10 c
      let places : Int := digits.length + s
      if -4 < places ∧ places ≤ 16 then positional digits places
      else scientific digits (places - 1)
  String.ofList (if negative then '-' :: body else body)

end ProcessPlan.Binary64
