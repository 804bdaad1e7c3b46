import ProcessPlan.Number.Binary64

/-!
# KDL documents

A document is a list of nodes. A node has a name, entries and perhaps a block of child nodes; an
entry is an argument or, with a name, a property. Type annotations and comments carry no meaning and
are not kept.

## Main definitions

* `Kdl.Value`, `Kdl.Entry`, `Kdl.Node`, `Kdl.Document`: the data
* `Kdl.Node.arguments`, `Kdl.Node.property?`: the view that reading a configuration has of a node
-/

namespace ProcessPlan.Kdl

/-- A value of a document. An integer stays exact, and a number with a fraction or an exponent is
never an integer. -/
inductive Value where
  | text (s : String)
  | int (n : Int)
  | real (x : Binary64)
  | bool (b : Bool)
  | null
deriving DecidableEq

namespace Value

/-- The text of a string. -/
def text? : Value → Option String
  | .text s => some s
  | _ => none

/-- The value of an integer. -/
def int? : Value → Option Int
  | .int n => some n
  | _ => none

/-- The value of a truth value. -/
def bool? : Value → Option Bool
  | .bool b => some b
  | _ => none

end Value

/-- An entry of a node: an argument, or a property if it has a name. -/
structure Entry where
  name : Option String
  value : Value
deriving DecidableEq

/-- A node. `children` tells a node without a block from one with an empty block. -/
structure Node where
  name : String
  entries : List Entry
  children : Option (List Node)

/-- A document is the list of its nodes. -/
abbrev Document := List Node

namespace Node

/-- The values of the arguments, in order. -/
def arguments (node : Node) : List Value :=
  (node.entries.filter (·.name.isNone)).map (·.value)

/-- The value of a property. Of several with the name, the last counts. -/
def property? (node : Node) (name : String) : Option Value :=
  (node.entries.findRev? (·.name = some name)).map (·.value)

/-- The first argument. -/
def argument? (node : Node) : Option Value := node.arguments.head?

/-- The first argument, if it is a string. -/
def argumentText? (node : Node) : Option String := node.argument?.bind Value.text?

/-- The arguments that are strings. -/
def argumentTexts (node : Node) : List String := node.arguments.filterMap Value.text?

/-- The value of a property, if it is a string. -/
def propertyText? (node : Node) (name : String) : Option String :=
  (node.property? name).bind Value.text?

/-- The value of a property, if it is a truth value. -/
def propertyBool? (node : Node) (name : String) : Option Bool :=
  (node.property? name).bind Value.bool?

/-- The nodes of the block, none if there is no block. -/
def childNodes (node : Node) : List Node := node.children.getD []

end Node

end ProcessPlan.Kdl
