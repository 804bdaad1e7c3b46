import ProcessPlan.Data.Tree
import ProcessPlan.Data.Yaml.Scalar
import ProcessPlan.Number.Shortest
import ProcessPlan.Text.Basic

/-!
# YAML documents

A tree of data as a YAML document in block style. The fields of a record stand two columns further
in than the record that holds it, the items of a list in a field under its key. A variant is a value
with a tag.

## Main definitions

* `Yaml.following`, `Yaml.hanging`: what stands after a key or a tag, and after the mark of an item
* `Yaml.document`: the document of a tree
-/

namespace ProcessPlan.Yaml

/-- The number of bytes up to which a key needs no mark. -/
def maxSimpleKey : Nat := 128

/-- Whether a key needs no mark: it stands on one line and is not too long. -/
def isSimpleKey (key : String) : Bool :=
  key.utf8ByteSize ≤ maxSimpleKey && !key.toList.any isBreak

/-- The start of a line up to a column. -/
def padding (column : Nat) : String := String.ofList (spaces column)

/-- Entries of which the first follows on the line, and every other starts at a column. -/
def onLine (column : Nat) (entries : List String) : String := Text.join (padding column) entries

/-- Entries that start at a column, each on a line of its own. -/
def onLines (column : Nat) (entries : List String) : String :=
  "\n" ++ padding column ++ onLine column entries

/-- The written form of a number that is no integer. -/
def real : Binary64 → String
  | .nan => ".nan"
  | .infinite negative => if negative then "-.inf" else ".inf"
  | .finite negative m e => Binary64.finiteText negative m e

mutual

/-- What stands after a key or a tag: a scalar on the same line, the items of a list from the column
`list` on, and the fields of a record from the column `column` on. -/
def following (list column : Nat) : Data → String
  | .null => " null\n"
  | .bool b => if b then " true\n" else " false\n"
  | .int n => " " ++ toString n ++ "\n"
  | .real x => " " ++ real x ++ "\n"
  | .text s => " " ++ scalar column s
  | .list elements => if elements.isEmpty then " []\n" else onLines list (items list elements)
  | .record record =>
    if record.isEmpty then " \x7b\x7d\n" else onLines column (fields column record)
  | .variant name payload => " !" ++ name ++ following list column payload

/-- What stands after the mark of an item, from a column on. -/
def hanging (column : Nat) : Data → String
  | .null => "null\n"
  | .bool b => if b then "true\n" else "false\n"
  | .int n => toString n ++ "\n"
  | .real x => real x ++ "\n"
  | .text s => scalar column s
  | .list elements => if elements.isEmpty then "[]\n" else onLine column (items column elements)
  | .record record =>
    if record.isEmpty then "\x7b\x7d\n" else onLine column (fields column record)
  | .variant name payload => "!" ++ name ++ following column column payload

/-- The items of a list at a column. -/
def items (column : Nat) : List Data → List String
  | [] => []
  | item :: rest => ("- " ++ hanging (column + 2) item) :: items column rest

/-- The fields of a record at a column. A key that is not simple, and its value, are written like
items with marks of their own. -/
def fields (column : Nat) : List (String × Data) → List String
  | [] => []
  | (key, item) :: rest =>
    (if isSimpleKey key then
      written column key ++ ":" ++ following column (column + 2) item
    else
      "? " ++ scalar (column + 2) key ++ padding column ++ ": " ++ hanging (column + 2) item) ::
      fields column rest

end

/-- The document of a tree. -/
def document (d : Data) : String := hanging 0 d

end ProcessPlan.Yaml
