import ProcessPlan.Table

/-!
# The place of a process

The nodes it may run on, and the volumes it finds there.

## Main definitions

* `SelectorOperator`, `SelectorExpression`, `SelectorTerm`: conditions on a node; those of a term
  hold together
* `Volume`, `VolumeSource`, `VolumeMount`: volumes, where they come from, and where they are mounted
-/

namespace ProcessPlan

/-- How a condition compares the label of a node with its values. -/
inductive SelectorOperator where
  | isIn
  | notIn
  | exists
  | doesNotExist
  | gt
  | lt
deriving DecidableEq

namespace SelectorOperator

/-- The written name. -/
def name : SelectorOperator → String
  | isIn => "In"
  | notIn => "NotIn"
  | «exists» => "Exists"
  | doesNotExist => "DoesNotExist"
  | gt => "Gt"
  | lt => "Lt"

/-- All operators. -/
def all : List SelectorOperator := [isIn, notIn, «exists», doesNotExist, gt, lt]

/-- The operator of a name, which is compared as it stands. -/
def ofName? (name : String) : Option SelectorOperator := all.find? (·.name = name)

/-- Whether a condition with the operator is empty without a value. -/
def needsValues : SelectorOperator → Bool
  | isIn | notIn => true
  | _ => false

@[simp] theorem ofName?_name (op : SelectorOperator) : ofName? op.name = some op := by
  cases op <;> decide

end SelectorOperator

/-- A condition on the label of a node. -/
structure SelectorExpression where
  key : String
  operator : SelectorOperator
  values : List String
deriving DecidableEq

/-- Conditions that hold together. -/
structure SelectorTerm where
  expressions : List SelectorExpression
deriving DecidableEq

/-- Where the content of a volume comes from. -/
inductive VolumeSource where
  | emptyDir
  | configMap (name : String)
  | secret (name : String)
  | persistentVolumeClaim (name : String)
  | hostPath (path : String)
deriving DecidableEq

/-- A volume. -/
structure Volume where
  name : String
  source : VolumeSource
deriving DecidableEq

/-- Where a volume is mounted. -/
structure VolumeMount where
  name : String
  path : String
  readOnly : Bool
  subPath : Option String
deriving DecidableEq

end ProcessPlan
