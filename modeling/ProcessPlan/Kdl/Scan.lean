/-!
# Scanning a KDL document

A scanner reads an item from the front of a text and returns what is left. A repeated scanner goes
on for at most as many rounds as there are characters, and stops at the first round that reads
nothing; so every scanner here is total, and no bound shows outside.

## Main definitions

* `Kdl.isSpace`, `Kdl.isNewline`: white space inside a line, and the characters that end one
* `Kdl.isForbidden`: the characters that no string may hold unescaped
* `Kdl.isIdentifierChar`: the characters of a string without quotes
* `Kdl.isKeyword`: the words that a string without quotes may not be
* `Kdl.Scan`: scanners
* `Kdl.Scan.many`: a scanner repeated as long as it reads something
* `Kdl.skipNodeSpace`, `Kdl.skipLineSpace`: the white space inside a node, and between nodes
-/

namespace ProcessPlan.Kdl

/-! ### Characters -/

/-- White space inside a line: the tab, and the space separators of Unicode. -/
def isSpace (c : Char) : Bool :=
  let n := c.toNat
  n == 0x9 || n == 0x20 || n == 0xA0 || n == 0x1680 || (0x2000 ≤ n && n ≤ 0x200A) || n == 0x202F ||
    n == 0x205F || n == 0x3000

/-- The characters that end a line; a carriage return and a line feed end it together. -/
def isNewline (c : Char) : Bool :=
  let n := c.toNat
  (0xA ≤ n && n ≤ 0xD) || n == 0x85 || n == 0x2028 || n == 0x2029

/-- Control characters, marks that change the direction of text, and the byte order mark. -/
def isForbidden (c : Char) : Bool :=
  let n := c.toNat
  n ≤ 0x8 || (0xE ≤ n && n ≤ 0x1F) || n == 0x200E || n == 0x200F || (0x202A ≤ n && n ≤ 0x202E) ||
    (0x2066 ≤ n && n ≤ 0x2069) || n == 0xFEFF

/-- The characters with a meaning of their own in the grammar. -/
def isPunctuation (c : Char) : Bool :=
  "\\/(){}[];\"#=".toList.contains c

/-- The characters of a string without quotes. -/
def isIdentifierChar (c : Char) : Bool :=
  !isPunctuation c && !isSpace c && !isNewline c && !isForbidden c

/-- The words that would be taken for a keyword or a number without its `#`. -/
def isKeyword (s : String) : Bool :=
  ["inf", "-inf", "nan", "true", "false", "null"].contains s

/-! ### Scanners -/

/-- A scanner reads an item from the front of a text, or fails. -/
abbrev Scan (α : Type) := List Char → Option (α × List Char)

namespace Scan

/-- Repeat a scanner for at most `rounds` rounds. -/
def repeated {α : Type} (item : Scan α) : Nat → List Char → List α × List Char
  | 0, cs => ([], cs)
  | rounds + 1, cs =>
    match item cs with
    | none => ([], cs)
    | some (a, rest) =>
      let (as, rest) := repeated item rounds rest
      (a :: as, rest)

/-- Repeat a scanner that always reads something, as long as it succeeds. -/
def many {α : Type} (item : Scan α) (cs : List Char) : List α × List Char :=
  repeated item cs.length cs

/-- Skip what a scanner without a result reads, as long as it succeeds. -/
def skip (item : Scan Unit) (cs : List Char) : List Char := (many item cs).2

end Scan

/-- What follows the end of a block comment that is open `depth` times. Comments nest. -/
def closeComment : Nat → List Char → Option (List Char)
  | 0, cs => some cs
  | depth + 1, '*' :: '/' :: cs => closeComment depth cs
  | depth + 1, '/' :: '*' :: cs => closeComment (depth + 2) cs
  | depth + 1, _ :: cs => closeComment (depth + 1) cs
  | _ + 1, [] => none

/-- One end of a line. -/
def newline : Scan Unit
  | '\r' :: '\n' :: cs => some ((), cs)
  | c :: cs => if isNewline c then some ((), cs) else none
  | [] => none

/-- A comment up to the end of the line, which belongs to it. -/
def lineComment : Scan Unit
  | '/' :: '/' :: cs =>
    let rest := cs.dropWhile (!isNewline ·)
    match newline rest with
    | some (_, rest) => some ((), rest)
    | none => some ((), rest)
  | _ => none

/-- A space or a block comment. -/
def blank : Scan Unit
  | '/' :: '*' :: cs => (closeComment 1 cs).map ((), ·)
  | c :: cs => if isSpace c then some ((), cs) else none
  | [] => none

/-- A backslash that joins a line to the next one. -/
def lineContinuation : Scan Unit
  | '\\' :: cs =>
    match Scan.skip blank cs with
    | [] => some ((), [])
    | rest =>
      match newline rest with
      | some result => some result
      | none => lineComment rest
  | _ => none

/-- White space inside a node. -/
def nodeSpace : Scan Unit := fun cs => (blank cs).or (lineContinuation cs)

/-- White space between nodes. -/
def lineSpace : Scan Unit := fun cs => ((nodeSpace cs).or (newline cs)).or (lineComment cs)

/-- What follows the white space inside a node. -/
def skipNodeSpace (cs : List Char) : List Char := Scan.skip nodeSpace cs

/-- What follows the white space between nodes. -/
def skipLineSpace (cs : List Char) : List Char := Scan.skip lineSpace cs

end ProcessPlan.Kdl
