/-!
# Patterns

A pattern describes texts: one character of a class, a choice, one pattern after another, or a
pattern any number of times. Whether a whole text is described is found out by reading it once from
the left. What may still follow a character is a pattern again, and the text is described if after
its last character nothing more has to follow.

## Main definitions

* `Text.Pattern`: patterns
* `Text.Pattern.after`: what may follow a character
* `Text.Pattern.accepts`: whether a pattern describes a text
-/

namespace ProcessPlan.Text

/-- A description of texts. -/
inductive Pattern where
  /-- No text. -/
  | never
  /-- The empty text. -/
  | nothing
  /-- One character of a class. -/
  | one (allowed : Char → Bool)
  /-- A text of the first pattern and one of the second after it. -/
  | seq (p q : Pattern)
  /-- A text of either pattern. -/
  | either (p q : Pattern)
  /-- Any number of texts of a pattern, one after the other. -/
  | many (p : Pattern)

namespace Pattern

/-- The empty text, or a text of a pattern. -/
def optional (p : Pattern) : Pattern := either nothing p

/-- At least one text of a pattern, with a character between each two. -/
def separated (sep : Char) (p : Pattern) : Pattern := seq p (many (seq (one (· == sep)) p))

/-- Whether a pattern describes the empty text. -/
def acceptsEmpty : Pattern → Bool
  | never | one _ => false
  | nothing | many _ => true
  | seq p q => p.acceptsEmpty && q.acceptsEmpty
  | either p q => p.acceptsEmpty || q.acceptsEmpty

/-- One pattern after another. Nothing comes after what never is, so that what may follow a text
stays as small as the pattern it is taken from. -/
def andThen : Pattern → Pattern → Pattern
  | never, _ => never
  | nothing, q => q
  | p, q => seq p q

/-- Either of two patterns, and just the other one if one of them describes no text. -/
def orElse : Pattern → Pattern → Pattern
  | never, q => q
  | p, never => p
  | p, q => either p q

/-- What may follow a character. -/
def after (c : Char) : Pattern → Pattern
  | never | nothing => never
  | one allowed => if allowed c then nothing else never
  | seq p q =>
    let rest := (p.after c).andThen q
    if p.acceptsEmpty then rest.orElse (q.after c) else rest
  | either p q => (p.after c).orElse (q.after c)
  | many p => (p.after c).andThen (many p)

/-- Whether a pattern describes a text. -/
def accepts : Pattern → List Char → Bool
  | p, [] => p.acceptsEmpty
  | p, c :: cs => (p.after c).accepts cs

end Pattern

end ProcessPlan.Text
