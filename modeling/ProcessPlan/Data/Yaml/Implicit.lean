import ProcessPlan.Number.Binary64
import ProcessPlan.Number.Digits

/-!
# Plain texts that are read as something else

A YAML document may hold a text without quotes, but some texts are then taken for null, a truth
value or a number. Digits with a zero in front are told apart from numbers, and still quoted.

## Main definitions

* `Yaml.isImplicit`: whether a plain text needs quotes to be read as a text
-/

namespace ProcessPlan.Yaml

/-- The texts that stand for null. -/
def nullWords : List String := ["", "~", "null", "Null", "NULL"]

/-- The texts that stand for a truth value. -/
def boolWords : List String := ["true", "True", "TRUE", "false", "False", "FALSE"]

/-- The texts that stand for a number that is not finite. -/
def limitWords : List String :=
  [".nan", ".NaN", ".NAN", ".inf", ".Inf", ".INF", "+.inf", "+.Inf", "+.INF", "-.inf", "-.Inf",
    "-.INF"]

/-- The base that the two characters at the front announce. -/
def announcedBase? : List Char → Option (Nat × List Char)
  | '0' :: 'x' :: rest => some (16, rest)
  | '0' :: 'o' :: rest => some (8, rest)
  | '0' :: 'b' :: rest => some (2, rest)
  | _ => none

/-- Whether a text is an integer in an announced base, within 128 bits. A negative one is signed. -/
def isBasedInteger (cs : List Char) : Bool :=
  let (negative, body) := Digits.sign cs
  match announcedBase? body with
  | none => false
  | some (base, digits) =>
    match Digits.read? base digits with
    | none => false
    | some n => if negative then decide (n ≤ Nat.pow 2 127) else decide (n < Nat.pow 2 128)

/-- The exponent of ten at the end of a decimal: nothing, or a letter and an integer. -/
def exponent? : List Char → Option Int
  | [] => some 0
  | c :: cs => if c = 'e' ∨ c = 'E' then Digits.decimal? cs else none

/-- Whether a text is a decimal with a finite value: an integer, or a number with a point or an
exponent. -/
def isFiniteDecimal (cs : List Char) : Bool :=
  let (negative, body) := Digits.sign cs
  let whole := body.takeWhile Char.isDigit
  let (fraction, rest) := match body.dropWhile Char.isDigit with
    | '.' :: rest => (rest.takeWhile Char.isDigit, rest.dropWhile Char.isDigit)
    | rest => ([], rest)
  match Digits.read? 10 (whole ++ fraction), exponent? rest with
  | some digits, some exponent =>
    match Binary64.ofDecimal negative digits (exponent - fraction.length) with
    | .finite _ _ _ => true
    | _ => false
  | _, _ => false

/-- Whether a text is a zero and further digits, perhaps after a sign. -/
def isPadded (cs : List Char) : Bool :=
  match (Digits.sign cs).2 with
  | '0' :: rest => !rest.isEmpty && rest.all Char.isDigit
  | _ => false

/-- Whether a plain text needs quotes to be read as a text. -/
def isImplicit (s : String) : Bool :=
  let cs := s.toList
  nullWords.contains s || boolWords.contains s || limitWords.contains s || isBasedInteger cs ||
    isFiniteDecimal cs || isPadded cs

end ProcessPlan.Yaml
