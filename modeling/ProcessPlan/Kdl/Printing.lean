import ProcessPlan.Kdl.Node
import ProcessPlan.Kdl.Scan
import ProcessPlan.Number.Shortest

/-!
# The written form of a KDL value

Messages quote a value as a document would write it: a string bare if nothing could mistake it for
something else, the keywords with their `#`, an integer in decimal, and any other number by its
shortest decimal.

## Main definitions

* `Kdl.isBare`: whether a string needs no quotes
* `Kdl.Value.written`: the written form
-/

namespace ProcessPlan.Kdl

/-- Whether a text starts like a number: with a digit, perhaps after one sign or point. -/
def startsLikeNumber : List Char → Bool
  | c :: d :: _ => c.isDigit || ((c == '.' || c == '-' || c == '+') && d.isDigit)
  | [c] => c.isDigit
  | [] => false

/-- Whether a string can be written without quotes. -/
def isBare (s : String) : Bool :=
  let cs := s.toList
  !cs.isEmpty && cs.all isIdentifierChar && !startsLikeNumber cs && !isKeyword s

/-- A character inside quotes. -/
def quotedChar (c : Char) : List Char :=
  match c with
  | '\\' => ['\\', '\\']
  | '"' => ['\\', '"']
  | '\n' => ['\\', 'n']
  | '\r' => ['\\', 'r']
  | '\t' => ['\\', 't']
  | '\x08' => ['\\', 'b']
  | '\x0c' => ['\\', 'f']
  | _ => [c]

/-- A string between quotes. -/
def quoted (s : String) : String :=
  String.ofList (['"'] ++ s.toList.flatMap quotedChar ++ ['"'])

/-- The written form of a number that is no integer. -/
def writtenReal : Binary64 → String
  | .nan => "#nan"
  | .infinite negative => if negative then "#-inf" else "#inf"
  | .finite negative m e => Binary64.finiteText negative m e

/-- The written form of a value. -/
def Value.written : Value → String
  | .text s => if isBare s then s else quoted s
  | .int n => toString n
  | .real x => writtenReal x
  | .bool b => if b then "#true" else "#false"
  | .null => "#null"

end ProcessPlan.Kdl
