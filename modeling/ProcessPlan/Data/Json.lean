import ProcessPlan.Data.Tree
import ProcessPlan.Number.Shortest
import ProcessPlan.Text.Basic

/-!
# JSON documents

A tree of data as a JSON document over several lines: every item and every field has a line of its
own, two more spaces in for each level. A variant is an object with one field.

## Main definitions

* `Json.quoted`: the written form of a text
* `Json.value`: the written form of a tree at a level
* `Json.document`: the document of a tree

## Main results

* `Json.value_plain`: a document does not show which of its objects are variants
-/

namespace ProcessPlan.Json

/-- A character inside quotes. Only quotes, backslashes and the control characters of ASCII are
escaped, those without a letter of their own by number. -/
def quotedChar (c : Char) : List Char :=
  match c with
  | '"' => ['\\', '"']
  | '\\' => ['\\', '\\']
  | '\x08' => ['\\', 'b']
  | '\x0c' => ['\\', 'f']
  | '\n' => ['\\', 'n']
  | '\r' => ['\\', 'r']
  | '\t' => ['\\', 't']
  | _ =>
    if c.toNat < 0x20 then
      ['\\', 'u', '0', '0', Nat.digitChar (c.toNat / 16), Nat.digitChar (c.toNat % 16)]
    else [c]

/-- The written form of a text. -/
def quoted (s : String) : String :=
  String.ofList (['"'] ++ s.toList.flatMap quotedChar ++ ['"'])

/-- The written form of a number that is no integer. There is none but `null` for one that is not
finite. -/
def real : Binary64 → String
  | .finite negative m e => Binary64.finiteText negative m e
  | _ => "null"

/-- The start of a line at a level. -/
def newline (level : Nat) : String := String.ofList ('\n' :: List.replicate (2 * level) ' ')

/-- Written forms between brackets at a level, each on a line of its own. -/
def bracketed (level : Nat) (opening closing : String) (parts : List String) : String :=
  if parts.isEmpty then opening ++ closing
  else
    opening ++ newline (level + 1) ++ Text.join ("," ++ newline (level + 1)) parts ++
      newline level ++ closing

mutual

/-- The written form of a tree at a level. -/
def value (level : Nat) : Data → String
  | .null => "null"
  | .bool b => if b then "true" else "false"
  | .int n => toString n
  | .real x => real x
  | .text s => quoted s
  | .list list => bracketed level "[" "]" (items (level + 1) list)
  | .record record => bracketed level "\x7b" "\x7d" (fields (level + 1) record)
  | .variant name payload =>
    bracketed level "\x7b" "\x7d" [quoted name ++ ": " ++ value (level + 1) payload]

/-- The written forms of the items of a list. -/
def items (level : Nat) : List Data → List String
  | [] => []
  | item :: rest => value level item :: items level rest

/-- The written forms of the fields of a record. -/
def fields (level : Nat) : List (String × Data) → List String
  | [] => []
  | (key, item) :: rest => (quoted key ++ ": " ++ value level item) :: fields level rest

end

mutual

/-- Variants are written as the records that stand for them in the plain tree. -/
theorem value_plain (level : Nat) (d : Data) : value level d.plain = value level d := by
  match d with
  | .null | .bool _ | .int _ | .real _ | .text _ => rfl
  | .list list => simp only [Data.plain, value, items_plain (level + 1) list]
  | .record record => simp only [Data.plain, value, fields_plain (level + 1) record]
  | .variant name payload =>
    simp only [Data.plain, value, fields, value_plain (level + 1) payload]

/-- The items of a list are written as those of the plain tree. -/
theorem items_plain (level : Nat) (list : List Data) :
    items level (Data.plainItems list) = items level list := by
  match list with
  | [] => rfl
  | item :: rest =>
    simp only [Data.plainItems, items, value_plain level item, items_plain level rest]

/-- The fields of a record are written as those of the plain tree. -/
theorem fields_plain (level : Nat) (record : List (String × Data)) :
    fields level (Data.plainFields record) = fields level record := by
  match record with
  | [] => rfl
  | (key, item) :: rest =>
    simp only [Data.plainFields, fields, value_plain level item, fields_plain level rest]

end

/-- The document of a tree. -/
def document (d : Data) : String := value 0 d ++ "\n"

end ProcessPlan.Json
