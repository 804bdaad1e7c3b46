import ProcessPlan.Kdl.Numeral
import ProcessPlan.Kdl.Quoted

/-!
# Reading a KDL document

The grammar of version 2 of the language. White space has to stand before every entry; a block may
follow directly. A slash and a dash take the node, entry or block after them out of the document.

## Main definitions

* `Kdl.entry`, `Kdl.block`, `Kdl.node`, `Kdl.nodes`: the parts of a document
* `Kdl.Document.ofText?`: the document of a text

## Implementation notes

Blocks nest, so `nodes` takes the depth down to which it reads as an argument. No text is nested
deeper than it is long, so `Document.ofText?` hides that bound.
-/

namespace ProcessPlan.Kdl

/-- A type annotation, which carries no meaning, and the white space after it. -/
def skipTypeName (cs : List Char) : Option (List Char) :=
  match cs with
  | '(' :: rest =>
    match string (skipNodeSpace rest) with
    | some (_, rest) =>
      match skipNodeSpace rest with
      | ')' :: rest => some (skipNodeSpace rest)
      | _ => none
    | none => none
  | _ => some cs

/-- The keywords, each with what it stands for. -/
def keywords : List (String × Value) :=
  [("#true", .bool true), ("#false", .bool false), ("#null", .null),
    ("#inf", .real (.infinite false)), ("#-inf", .real (.infinite true)), ("#nan", .real .nan)]

/-- A keyword: a number sign and the word after it. -/
def keyword : Scan Value
  | '#' :: cs =>
    let word := String.ofList ('#' :: cs.takeWhile isIdentifierChar)
    (keywords.lookup word).map ((·, cs.dropWhile isIdentifierChar))
  | _ => none

/-- Whether a text starts with a keyword and not with a raw string. -/
def startsKeyword : List Char → Bool
  | '#' :: cs =>
    match cs.dropWhile (· == '#') with
    | '"' :: _ => false
    | _ => true
  | _ => false

/-- A value without a type annotation. -/
def bareValue : Scan Value := fun cs =>
  if startsKeyword cs then keyword cs
  else if startsNumeral cs then numeral cs
  else (string cs).map fun (s, rest) => (.text s, rest)

/-- A value. -/
def value : Scan Value := fun cs => (skipTypeName cs).bind bareValue

/-- An entry: a string with an equals sign after it is the name of a property. -/
def entry : Scan Entry := fun cs => do
  let annotated := cs.head? == some '('
  let (v, rest) ← value cs
  match v, skipNodeSpace rest with
  | .text name, '=' :: after =>
    if annotated then some (⟨none, v⟩, rest)
    else (value (skipNodeSpace after)).map fun (v, rest) => (⟨some name, v⟩, rest)
  | _, _ => some (⟨none, v⟩, rest)

/-- What follows a slash and a dash and the white space after them. -/
def slashdash : List Char → Option (List Char)
  | '/' :: '-' :: cs => some (skipLineSpace cs)
  | _ => none

/-- White space and the entry after it, or none if the entry is taken out. -/
def spacedEntry : Scan (Option Entry) := fun cs => do
  let (_, rest) ← nodeSpace cs
  let rest := skipNodeSpace rest
  match slashdash rest with
  | none => (entry rest).map fun (e, rest) => (some e, rest)
  | some rest =>
    if rest.head? == some '{' then none
    else (entry rest).map fun (_, rest) => (none, rest)

/-- A block, with `nodes` for the nodes in it. -/
def block (nodes : Scan (List Node)) : Scan (List Node)
  | '{' :: cs => do
    let (children, rest) ← nodes cs
    match rest with
    | '}' :: rest => some (children, rest)
    | _ => none
  | _ => none

/-- A block that is taken out. -/
def droppedBlock (nodes : Scan (List Node)) : Scan Unit := fun cs => do
  let rest ← slashdash (skipNodeSpace cs)
  let (_, rest) ← block nodes rest
  some ((), rest)

/-- A node without what ends it, and the white space after it. -/
def node (nodes : Scan (List Node)) : Scan Node := fun cs => do
  let cs ← skipTypeName cs
  let (name, rest) ← string cs
  let (entries, rest) := Scan.many spacedEntry rest
  let rest := Scan.skip (droppedBlock nodes) rest
  let (children, rest) := match block nodes (skipNodeSpace rest) with
    | some (children, rest) => (some children, Scan.skip (droppedBlock nodes) rest)
    | none => (none, rest)
  some (⟨name, entries.filterMap id, children⟩, skipNodeSpace rest)

/-- What ends a node: a semicolon, the end of its line, a comment up to there, the end of the block,
which is left, or the end of the text. -/
def nodeEnd : Scan Unit
  | [] => some ((), [])
  | ';' :: rest => some ((), rest)
  | '}' :: rest => some ((), '}' :: rest)
  | cs => (newline cs).or (lineComment cs)

/-- White space, the node after it and its end, or none if the node is taken out. -/
def endedNode (nodes : Scan (List Node)) : Scan (Option Node) := fun cs => do
  let start := skipLineSpace cs
  let dropped := slashdash start
  let (n, rest) ← node nodes (dropped.getD start)
  let (_, rest) ← nodeEnd rest
  some (if dropped.isSome then none else some n, rest)

/-- The nodes at the front of a text, nested at most `depth` deep, and the white space after them.
-/
def nodes : Nat → Scan (List Node)
  | 0 => fun _ => none
  | depth + 1 => fun cs =>
    let (items, rest) := Scan.many (endedNode (nodes depth)) cs
    some (items.filterMap id, skipLineSpace rest)

/-- The document of a text. A byte order mark may stand at its start. -/
def Document.ofText? (text : String) : Option Document :=
  let cs := match text.toList with
    | '\uFEFF' :: cs => cs
    | cs => cs
  match nodes (cs.length + 1) cs with
  | some (document, []) => some document
  | _ => none

end ProcessPlan.Kdl
