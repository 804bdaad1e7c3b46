import ProcessPlan.Data.Yaml.Character
import ProcessPlan.Data.Yaml.Implicit

/-!
# Texts of a YAML document

A text of several lines is written as a literal block where that is possible. Any other text is
plain if it can be, between single quotes if it would be read as something else or starts or ends in
a way that forbids the plain form, and between double quotes if characters of it need an escape.

## Main definitions

* `Yaml.Style`: the forms of a text
* `Yaml.style`: the form that a text is given
* `Yaml.written`, `Yaml.scalar`: its written form, and that with the end of its line
-/

namespace ProcessPlan.Yaml

/-- The forms of a text. -/
inductive Style where
  | plain
  | singleQuoted
  | doubleQuoted
  | literal
deriving DecidableEq

/-! ### What forbids a form -/

/-- The characters that mean something else at the start of a text, whatever follows. -/
def indicators : List Char :=
  ['#', ',', '[', ']', '\x7b', '\x7d', '&', '*', '!', '|', '>', '\'', '"', '%', '@', '\x60']

/-- Whether a text is at its end or goes on with white space. -/
def endsWord : List Char → Bool
  | [] => true
  | c :: _ => isBlankOrBreak c

/-- Whether a colon before white space or a number sign after it stands in a text. -/
def hasInnerIndicator (previous : Char) : List Char → Bool
  | [] => false
  | c :: rest =>
    (c == ':' && endsWord rest) || (c == '#' && isBlankOrBreak previous) ||
      hasInnerIndicator c rest

/-- Whether the start of a text or a character in it would be read as a mark of the language. -/
def hasIndicator (cs : List Char) : Bool :=
  match cs with
  | [] => false
  | c :: rest =>
    ['-', '-', '-'].isPrefixOf cs || ['.', '.', '.'].isPrefixOf cs || indicators.contains c ||
      ((c == '?' || c == ':' || c == '-') && endsWord rest) || hasInnerIndicator c rest

/-- Whether two neighbours of a text are of two kinds. -/
def hasNeighbours (first second : Char → Bool) : List Char → Bool
  | c :: d :: rest => (first c && second d) || hasNeighbours first second (d :: rest)
  | _ => false

/-- Whether a character is a space. -/
def isSpace (c : Char) : Bool := c == ' '

/-- Whether a character is a space or ends a line. -/
def isEdge (c : Char) : Bool := isSpace c || isBreak c

/-- Whether only double quotes can hold a text: it has a character that is not printable, or a space
at the end of a line. -/
def needsEscapes (cs : List Char) : Bool :=
  cs.any (!isPrintable ·) || hasNeighbours isSpace isBreak cs

/-- Whether a text can be written without quotes. -/
def allowsPlain (cs : List Char) : Bool :=
  !(cs.head?.any isEdge || cs.getLast?.any isEdge || cs.any isBreak || hasIndicator cs ||
    needsEscapes cs)

/-- Whether a text can be written between single quotes: no line starts with a space. -/
def allowsSingleQuotes (cs : List Char) : Bool :=
  !(hasNeighbours isBreak isSpace cs || needsEscapes cs)

/-- Whether a text can be written as a literal block: it does not end in a space. -/
def allowsLiteral (cs : List Char) : Bool := !(cs.getLast?.any isSpace || needsEscapes cs)

/-- The form that a text is given. -/
def style (s : String) : Style :=
  let cs := s.toList
  if cs.contains '\n' then if allowsLiteral cs then .literal else .doubleQuoted
  else if allowsPlain cs && !isImplicit s then .plain
  else if allowsSingleQuotes cs then .singleQuoted
  else .doubleQuoted

/-! ### The forms -/

/-- Spaces up to a column. -/
def spaces (column : Nat) : List Char := List.replicate column ' '

/-- The characters of a text from a column on; `lineStart` says whether a line starts here. Every
line with something in it starts at the column. -/
def indented (column : Nat) (written : Char → List Char) : Bool → List Char → List Char
  | _, [] => []
  | lineStart, c :: rest =>
    if isBreak c then c :: indented column written true rest
    else (if lineStart then spaces column else []) ++ written c ++
      indented column written false rest

/-- Whether a text ends in the middle of a line. -/
def endsInLine (cs : List Char) : Bool := !cs.getLast?.any isBreak

/-- A character between single quotes: a quote is written twice. -/
def singleQuotedChar (c : Char) : List Char := if c = '\'' then [c, c] else [c]

/-- A text between single quotes. The closing quote, too, stands at the column on a line of its
own. -/
def singleQuoted (column : Nat) (cs : List Char) : List Char :=
  ['\''] ++ indented column singleQuotedChar false cs ++
    (if endsInLine cs then [] else spaces column) ++ ['\'']

/-- A text between double quotes. -/
def doubleQuoted (cs : List Char) : List Char := ['"'] ++ cs.flatMap doubleQuotedChar ++ ['"']

/-- How a literal block treats the end of its last line: `-` if the text does not end a line, `+` if
it ends in an empty line, and nothing if it ends one line. -/
def chomping (cs : List Char) : List Char :=
  match cs.reverse with
  | [] => ['-']
  | last :: before =>
    if !isBreak last then ['-'] else if before.head?.all isBreak then ['+'] else []

/-- A literal block, indented up to a column. The width of the indentation is given where the text
starts with white space. -/
def literal (column : Nat) (cs : List Char) : List Char :=
  ['|'] ++ (if cs.head?.any isEdge then ['2'] else []) ++ chomping cs ++ ['\n'] ++
    indented column (fun c => [c]) true cs

/-- The written form of a text, whose further lines start at a column. -/
def written (column : Nat) (s : String) : String :=
  let cs := s.toList
  String.ofList (match style s with
    | .plain => cs
    | .singleQuoted => singleQuoted column cs
    | .doubleQuoted => doubleQuoted cs
    | .literal => literal column cs)

/-- The written form of a text with the end of its line. A literal block of a text that ends a line
does so itself. -/
def scalar (column : Nat) (s : String) : String :=
  if style s = .literal ∧ !endsInLine s.toList then written column s else written column s ++ "\n"

end ProcessPlan.Yaml
