import ProcessPlan.Fault
import ProcessPlan.Kdl.Node
import ProcessPlan.Number.Range

/-!
# Reading names, numbers and texts from nodes

## Main definitions

* `Config.readPort`, `Config.readCount`, `Config.readSigned`: numbers within a range
* `Config.readName`: the name that stands as first argument
* `Config.plainText?`: the text of a value
* `Config.optional`: reading a value only where there is one
-/

namespace ProcessPlan.Config

open Kdl (Node Value)

/-- What reading a declaration gives: a value, or what is wrong with the declaration. -/
abbrev Read (α : Type) := Except ConfigFault α

/-- A number of a range: the value has to be an integer in it. -/
def readNumber {α : Type} (range : NumberRange) (ofInt? : Int → Option α) (field : String)
    (value : Value) : Read α :=
  match value.int?.bind ofInt? with
  | some n => .ok n
  | none => .error (.badNumber range field value)

/-- A port number. -/
def readPort : String → Value → Read UInt16 := readNumber .port Range.word16?

/-- A count. -/
def readCount : String → Value → Read UInt32 := readNumber .count Range.word32?

/-- A signed number. -/
def readSigned : String → Value → Read Int64 := readNumber .signed Range.signed64?

/-- What a reader makes of a value that may be missing. -/
def optional {α β : Type} (read : α → Read β) : Option α → Read (Option β)
  | none => .ok none
  | some value => (read value).map some

/-- The name of a node: its first argument, which has to be a string. `kind` says in a fault what is
named. -/
def readName (kind : String) (node : Node) : Read String :=
  match node.argumentText? with
  | some name => .ok name
  | none => .error (.missingName kind)

/-- The text of a value: that of a string, an integer in decimal, or a truth value as a word. Other
values have none. -/
def plainText? : Value → Option String
  | .text s => some s
  | .int n => some (toString n)
  | .bool b => some (if b then "true" else "false")
  | .real _ => none
  | .null => none

/-- The text of the first argument of a node. -/
def argumentPlainText? (node : Node) : Option String := node.argument?.bind plainText?

end ProcessPlan.Config
