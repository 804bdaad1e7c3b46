import ProcessPlan.Metadata.Item
import ProcessPlan.Text.Basic
import ProcessPlan.Text.Pattern

/-!
# The grammar of labels and annotations

A key is a name, or a domain and a name with a slash between them. A name has up to 63 letters,
digits and `-`, `_`, `.`, with a letter or digit at both ends; a domain has up to 253 characters, in
parts of small letters, digits and `-` with a letter or digit at both ends, joined by points. The
value of a label is empty or keeps the rule for names. Both rules are checked by a pattern and a
limit on the number of bytes.

## Main definitions

* `Metadata.namePattern`, `Metadata.domainPattern`: the patterns of the two rules
* `Metadata.keyFault?`: what is wrong with a key
* `MetadataItem.fault?`: the first fault of an item
-/

namespace ProcessPlan

namespace Metadata

/-- Letters and digits of ASCII. -/
def isAlnum (c : Char) : Bool := c.isAlphanum

/-- The characters inside a name. -/
def isNameChar (c : Char) : Bool := isAlnum c || c == '-' || c == '_' || c == '.'

/-- Small letters and digits of ASCII. -/
def isLowerAlnum (c : Char) : Bool := c.isLower || c.isDigit

/-- The characters inside a part of a domain. -/
def isDomainChar (c : Char) : Bool := isLowerAlnum c || c == '-'

/-- The pattern of a name: `([A-Za-z0-9][-A-Za-z0-9_.]*)?[A-Za-z0-9]`. -/
def namePattern : Text.Pattern :=
  .seq (.optional (.seq (.one isAlnum) (.many (.one isNameChar)))) (.one isAlnum)

/-- The pattern of a part of a domain: `[a-z0-9]([-a-z0-9]*[a-z0-9])?`. -/
def partPattern : Text.Pattern :=
  .seq (.one isLowerAlnum) (.optional (.seq (.many (.one isDomainChar)) (.one isLowerAlnum)))

/-- The pattern of a domain: parts with points between them. -/
def domainPattern : Text.Pattern := .separated '.' partPattern

/-- A text that is described by a pattern, and has at least one byte and no more than a limit. -/
def keepsRule (pattern : Text.Pattern) (limit : Nat) (s : String) : Bool :=
  !s.isEmpty && s.utf8ByteSize ≤ limit && pattern.accepts s.toList

/-- The check of a name. -/
def checkName (s : String) : Bool := keepsRule namePattern 63 s

/-- The check of the domain in front of a name. -/
def checkDomain (s : String) : Bool := keepsRule domainPattern 253 s

/-- The check of the value of a label. -/
def checkLabelValue (s : String) : Bool := s.isEmpty || checkName s

end Metadata

/-- What is wrong with an item. -/
inductive ItemFault where
  | noEntries
  | badDomain (key : String)
  | badName (key : String)
  | badLabelValue (key value : String)
deriving DecidableEq

namespace ItemFault

/-- The key that is at fault. -/
def key? : ItemFault → Option String
  | noEntries => none
  | badDomain key | badName key | badLabelValue key _ => some key

/-- The rule that is broken, in words. -/
def reason : ItemFault → String
  | noEntries => "apply が空です"
  | badDomain _ => "プレフィックスは DNS サブドメインである必要があります"
  | badName _ => "名前は英数字で始まり英数字で終わる63文字以内で、'-' '_' '.' のみ使用できます"
  | badLabelValue _ value => "ラベル値が不正です: '" ++ value ++ "'"

end ItemFault

namespace Metadata

/-- What is wrong with a key. The first slash ends a domain, which is checked before the name. -/
def keyFault? (key : String) : Option ItemFault :=
  match Text.cut '/' key with
  | some (domain, name) =>
    if !checkDomain domain then some (.badDomain key)
    else if !checkName name then some (.badName key)
    else none
  | none => if !checkName key then some (.badName key) else none

/-- What is wrong with an entry: its key comes before its value, which only labels restrict. -/
def entryFault? (kind : MetadataKind) (entry : String × String) : Option ItemFault :=
  (keyFault? entry.1).or <|
    if kind = .labels ∧ !checkLabelValue entry.2 then some (.badLabelValue entry.1 entry.2)
    else none

end Metadata

/-- What is wrong with an item of a kind: that it has no entries, or else the fault of its first
entry with one. -/
def MetadataItem.fault? (item : MetadataItem) (kind : MetadataKind) : Option ItemFault :=
  if item.entries.isEmpty then some .noEntries
  else item.entries.entries.findSome? (Metadata.entryFault? kind)

end ProcessPlan
