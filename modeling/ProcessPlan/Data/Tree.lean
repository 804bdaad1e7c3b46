import ProcessPlan.Number.Binary64

/-!
# Trees of data

What a descriptor is turned into before it is written in a format, and what a value is read from.
The fields of a record keep their order.

## Main definitions

* `Data`: trees of data
* `Data.plain`: a tree in which a variant has become a record with one field

## Implementation notes

A `variant` is a value under the name of its alternative. Formats differ in how they show one, so
the tree keeps it apart from a record; a format without variants writes the plain tree.
-/

namespace ProcessPlan

/-- A tree of data. -/
inductive Data where
  | null
  | bool (b : Bool)
  | int (n : Int)
  | real (x : Binary64)
  | text (s : String)
  | list (items : List Data)
  | record (fields : List (String × Data))
  | variant (name : String) (payload : Data)

namespace Data

mutual

/-- The tree in which every variant is a record with its name as the only key. -/
def plain : Data → Data
  | null => null
  | bool b => bool b
  | int n => int n
  | real x => real x
  | text s => text s
  | list items => list (plainItems items)
  | record fields => record (plainFields fields)
  | variant name payload => record [(name, plain payload)]

/-- The items of a list, each without variants. -/
def plainItems : List Data → List Data
  | [] => []
  | item :: rest => plain item :: plainItems rest

/-- The fields of a record, each without variants. -/
def plainFields : List (String × Data) → List (String × Data)
  | [] => []
  | (key, value) :: rest => (key, plain value) :: plainFields rest

end

@[simp] theorem plainItems_eq_map (items : List Data) : plainItems items = items.map plain := by
  induction items with
  | nil => rfl
  | cons item rest ih => simp [plainItems, ih]

@[simp] theorem plainFields_eq_map (fields : List (String × Data)) :
    plainFields fields = fields.map fun field => (field.1, plain field.2) := by
  induction fields with
  | nil => rfl
  | cons field rest ih => obtain ⟨key, value⟩ := field; simp [plainFields, ih]

end Data

end ProcessPlan
