import ProcessPlan.Kdl.Node
import ProcessPlan.Kdl.Scan
import ProcessPlan.Number.Digits

/-!
# Numbers of a KDL document

A number is an integer in base two, eight, ten or sixteen, or a decimal with a fraction or an
exponent. Digits may be separated by underscores after the first. Every run of digits has to stay
below `2 ^ 127`.

## Main definitions

* `Kdl.numeral`: reads a number
* `Kdl.startsNumeral`: whether a text can only be read as a number
-/

namespace ProcessPlan.Kdl

/-- The least number that no run of digits may reach. -/
def numeralBound : Nat := Nat.pow 2 127

/-- A run of digits with underscores after the first, as the digits alone and what follows. -/
def digitRun (base : Nat) (cs : List Char) : Option (List Nat × List Char) :=
  match cs with
  | [] => none
  | c :: rest =>
    match Digits.value? base c with
    | none => none
    | some first =>
      let inRun (c : Char) := c == '_' || (Digits.value? base c).isSome
      some (first :: (rest.takeWhile inRun).filterMap (Digits.value? base), rest.dropWhile inRun)

/-- A run of digits within the bound, as its number, the count of its digits, and what follows. -/
def boundedRun (base : Nat) (cs : List Char) : Option (Nat × Nat × List Char) := do
  let (digits, rest) ← digitRun base cs
  let n := Digits.number base digits
  if n < numeralBound then some (n, digits.length, rest) else none

/-- The base that the two characters at the front announce. -/
def announcedBase? : List Char → Option (Nat × List Char)
  | '0' :: c :: rest =>
    match c with
    | 'x' | 'X' => some (16, rest)
    | 'o' | 'O' => some (8, rest)
    | 'b' | 'B' => some (2, rest)
    | _ => none
  | _ => none

/-- The fraction after a point, as its number and its count of digits; none is as good as zero. -/
def fraction : Scan (Option (Nat × Nat))
  | '.' :: rest => (boundedRun 10 rest).map fun (n, length, rest) => (some (n, length), rest)
  | cs => some (none, cs)

/-- The exponent of ten after its letter. -/
def exponent : Scan (Option Int)
  | c :: rest =>
    if c = 'e' ∨ c = 'E' then
      let (negative, rest) := Digits.sign rest
      (boundedRun 10 rest).map fun (n, _, rest) => (some (Digits.signed negative n), rest)
    else some (none, c :: rest)
  | [] => some (none, [])

/-- A number. -/
def numeral : Scan Value := fun cs => do
  let (negative, cs) := Digits.sign cs
  match announcedBase? cs with
  | some (base, cs) =>
    let (n, _, rest) ← boundedRun base cs
    some (.int (Digits.signed negative n), rest)
  | none =>
    let (n, _, rest) ← boundedRun 10 cs
    let (fraction, rest) ← fraction rest
    let (exponent, rest) ← exponent rest
    match fraction, exponent with
    | none, none => some (.int (Digits.signed negative n), rest)
    | _, _ =>
      let (f, places) := fraction.getD (0, 0)
      let digits := n * Nat.pow 10 places + f
      some (.real (Binary64.ofDecimal negative digits (exponent.getD 0 - places)), rest)

/-- Whether a text starts with a digit, perhaps after a sign. -/
def startsNumeral (cs : List Char) : Bool :=
  match (Digits.sign cs).2 with
  | c :: _ => c.isDigit
  | [] => false

end ProcessPlan.Kdl
