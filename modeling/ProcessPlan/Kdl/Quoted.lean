import ProcessPlan.Kdl.Scan
import ProcessPlan.Number.Digits

/-!
# Strings of a KDL document

A string is an identifier, or text between quotes, with escapes or, between number signs, raw. A
string between three quotes has several lines: the white space before the closing quotes is taken
off every line, and a line of white space alone is empty.

## Main definitions

* `Kdl.Mark`: a character of a string, told apart by whether it was escaped
* `Kdl.dedent`: the text of a string of several lines
* `Kdl.string`: reads a string of any form
-/

namespace ProcessPlan.Kdl

/-- A character of a string. An escaped one never counts as white space or as the end of a line. -/
structure Mark where
  char : Char
  escaped : Bool

/-- Whether a character is unescaped white space. -/
def Mark.isSpace (m : Mark) : Bool := !m.escaped && Kdl.isSpace m.char

/-- Whether a character is the unescaped end of a line. -/
def Mark.isLineEnd (m : Mark) : Bool := !m.escaped && m.char == '\n'

/-- The lines of a string: one more than it has unescaped line ends. -/
def lines : List Mark → List (List Mark)
  | [] => [[]]
  | m :: rest =>
    if m.isLineEnd then [] :: lines rest
    else
      match lines rest with
      | [] => [[m]]
      | first :: others => (m :: first) :: others

/-- A line without the indentation. A line of white space alone is empty. -/
def unindent (indentation : List Char) (line : List Mark) : Option (List Char) :=
  if line.all Mark.isSpace then some []
  else
    let (front, rest) := line.splitAt indentation.length
    if front.all (!·.escaped) && front.map (·.char) == indentation then some (rest.map (·.char))
    else none

/-- The text of a string of several lines: the last line, which has to be white space, is taken off
the front of all others. -/
def dedent (marks : List Mark) : Option (List Char) :=
  let all := lines marks
  let last := all.getLastD []
  if last.all Mark.isSpace then do
    let texts ← all.dropLast.mapM (unindent (last.map (·.char)))
    some (['\n'].intercalate texts)
  else none

/-- The character of an escape that has digits: up to six hexadecimal ones in braces. -/
def unicodeEscape (cs : List Char) : Option (Char × List Char) :=
  match cs with
  | '{' :: rest =>
    let isHex (c : Char) := (Digits.value? 16 c).isSome
    let digits := rest.takeWhile isHex
    match Digits.read? 16 digits, rest.dropWhile isHex with
    | some n, '}' :: rest =>
      if 6 < digits.length then none
      else if h : n.isValidChar then some (Char.ofNatAux n h, rest) else none
    | _, _ => none
  | _ => none

/-- What a backslash and the text after it stand for: a character, or nothing for white space. -/
def escape : Scan (Option Mark)
  | [] => none
  | c :: rest =>
    let char (c : Char) : Option (Option Mark × List Char) := some (some ⟨c, true⟩, rest)
    match c with
    | 'n' => char '\n'
    | 'r' => char '\r'
    | 't' => char '\t'
    | 's' => char ' '
    | 'b' => char '\x08'
    | 'f' => char '\x0c'
    | '\\' => char '\\'
    | '"' => char '"'
    | 'u' => (unicodeEscape rest).map fun (c, rest) => (some ⟨c, true⟩, rest)
    | c =>
      if isSpace c || isNewline c then
        some (none, rest.dropWhile fun c => isSpace c || isNewline c)
      else none

/-- A character that stands for itself inside a line. -/
def plainChar : Scan (Option Mark)
  | c :: rest =>
    if isNewline c || isForbidden c then none else some (some ⟨c, false⟩, rest)
  | [] => none

/-- Anything inside a string: an escape unless the string is raw, a line end if it has several
lines, or a character that stands for itself. The closing quotes end it. -/
def stringItem (raw severalLines : Bool) (close : List Char) : Scan (Option Mark) := fun cs =>
  if close.isPrefixOf cs then none
  else
    match newline cs with
    | some (_, rest) => if severalLines then some (some ⟨'\n', false⟩, rest) else none
    | none =>
      match cs with
      | '\\' :: rest => if raw then plainChar cs else escape rest
      | _ => plainChar cs

/-- The characters up to the closing quotes, and what follows these. -/
def stringBody (raw severalLines : Bool) (close : List Char) : Scan (List Mark) := fun cs =>
  let (items, rest) := Scan.many (stringItem raw severalLines close) cs
  if close.isPrefixOf rest then some (items.filterMap id, rest.drop close.length) else none

/-- A string between quotes, from the first quote on. A raw one has number signs around its quotes,
and may start with one quote more but not with two. -/
def quotedString (hashes : List Char) : Scan String := fun cs =>
  let raw := !hashes.isEmpty
  match cs with
  | '"' :: '"' :: '"' :: rest =>
    match newline rest with
    | some (_, rest) => do
      let (marks, rest) ← stringBody raw true (['"', '"', '"'] ++ hashes) rest
      let text ← dedent marks
      some (String.ofList text, rest)
    | none => none
  | '"' :: rest => do
    let (marks, rest) ← stringBody raw false ('"' :: hashes) rest
    some (String.ofList (marks.map (·.char)), rest)
  | _ => none

/-- A string without quotes. It does not start like a number, and is none of the keywords. -/
def identifier : Scan String := fun cs =>
  let word := cs.takeWhile isIdentifierChar
  let afterSign := match word with
    | '+' :: rest => rest
    | '-' :: rest => rest
    | _ => word
  let afterPoint := match afterSign with
    | '.' :: rest => rest
    | _ => afterSign
  let numeric := match afterPoint with
    | c :: _ => c.isDigit
    | [] => false
  let text := String.ofList word
  if word.isEmpty || numeric || isKeyword text then none
  else some (text, cs.dropWhile isIdentifierChar)

/-- A string of any form. -/
def string : Scan String := fun cs =>
  match cs with
  | '"' :: _ => quotedString [] cs
  | '#' :: _ => quotedString (cs.takeWhile (· == '#')) (cs.dropWhile (· == '#'))
  | _ => identifier cs

end ProcessPlan.Kdl
