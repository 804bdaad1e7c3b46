import ProcessPlan.Data.Tree
import ProcessPlan.Number.Range
import ProcessPlan.Table

/-!
# Writing and reading records

A field that is not set is left out of a record. A record may also be read from the list of its
values in the order of its fields, where fields at the end may be missing if they need not be given.
Fields that nothing asks for are ignored.

## Main definitions

* `Data.optional`, `Data.nonempty`: fields that are left out if they are not set
* `Data.fields?`: the fields of a record or of a list that stands for one
* `Data.required`, `Data.settable`, `Data.standard`: reading a field that has to be given, one that
  may be unset, and one with a standard value
-/

namespace ProcessPlan.Data

/-! ### Writing -/

/-- A field that is left out if there is no value. -/
def optional {α : Type} (key : String) (write : α → Data) (value : Option α) :
    List (String × Data) :=
  (value.map fun v => (key, write v)).toList

/-- A field with a list that is left out if the list is empty. -/
def nonempty {α : Type} (key : String) (write : α → Data) (values : List α) :
    List (String × Data) :=
  if values.isEmpty then [] else [(key, .list (values.map write))]

/-- A list of texts. -/
def texts (values : List String) : Data := .list (values.map .text)

/-- A table of texts. -/
def table (entries : Table String) : Data :=
  .record (entries.entries.map fun entry => (entry.1, .text entry.2))

/-- A word of 16 bits. -/
def word16 (n : UInt16) : Data := .int n.toNat

/-- A word of 32 bits. -/
def word32 (n : UInt32) : Data := .int n.toNat

/-- A signed word of 64 bits. -/
def signed64 (n : Int64) : Data := .int n.toInt

/-! ### Reading values -/

/-- The text of a text. -/
def text? : Data → Option String
  | text s => some s
  | _ => none

/-- The truth value of one. -/
def bool? : Data → Option Bool
  | bool b => some b
  | _ => none

/-- The word of an integer in the range of 16 bits. -/
def word16? : Data → Option UInt16
  | int n => Range.word16? n
  | _ => none

/-- The word of an integer in the range of 32 bits. -/
def word32? : Data → Option UInt32
  | int n => Range.word32? n
  | _ => none

/-- The signed word of an integer in the range of 64 bits. -/
def signed64? : Data → Option Int64
  | int n => Range.signed64? n
  | _ => none

/-- The items of a list, if all of them can be read. -/
def list? {α : Type} (read : Data → Option α) : Data → Option (List α)
  | list items => items.mapM read
  | _ => none

/-- The table of a record of texts. -/
def table? : Data → Option (Table String)
  | record fields => (fields.mapM fun field => (text? field.2).map (field.1, ·)).map .ofList
  | _ => none

/-- The name and the value of a variant, which a record with one field may stand for. -/
def variant? : Data → Option (String × Data)
  | variant name payload => some (name, payload)
  | record [field] => some field
  | _ => none

/-- The name of an alternative without a value: a text, or a variant that holds nothing. -/
def unitName? : Data → Option String
  | text s => some s
  | variant name null => some name
  | record [(name, null)] => some name
  | _ => none

/-! ### Reading records -/

/-- The fields of a record. -/
def recordFields? : Data → Option (List (String × Data))
  | record fields => some fields
  | _ => none

/-- The names of the fields of a record in order, each with whether it may be missing at the end of
a list that stands for the record. -/
abbrev Layout := List (String × Bool)

/-- The fields of a list of values that stands for a record. -/
def positional? : Layout → List Data → Option (List (String × Data))
  | [], [] => some []
  | [], _ :: _ => none
  | layout, [] => if layout.all (·.2) then some [] else none
  | (name, _) :: layout, value :: rest => (positional? layout rest).map ((name, value) :: ·)

/-- The fields of a record, or of a list of values that stands for one. -/
def fields? (layout : Layout) : Data → Option (List (String × Data))
  | record fields => some fields
  | list items => positional? layout items
  | _ => none

/-- A field that has to be given. -/
def required {α : Type} (fields : List (String × Data)) (key : String) (read : Data → Option α) :
    Option α :=
  (fields.lookup key).bind read

/-- A field that is unset if it is missing or null. -/
def settable {α : Type} (fields : List (String × Data)) (key : String) (read : Data → Option α) :
    Option (Option α) :=
  match fields.lookup key with
  | none | some null => some none
  | some value => (read value).map some

/-- A field with a standard value for when it is missing. -/
def standard {α : Type} (fields : List (String × Data)) (key : String) (read : Data → Option α)
    (value : α) : Option α :=
  match fields.lookup key with
  | none => some value
  | some value => read value

/-- The first of several alternatives, in order, whose name is the key of a field. -/
def alternative? {α : Type} (fields : List (String × Data))
    (alternatives : List (String × (Data → Option α))) : Option α :=
  match alternatives.find? fun alternative => (fields.lookup alternative.1).isSome with
  | some (name, read) => required fields name read
  | none => none

end ProcessPlan.Data
