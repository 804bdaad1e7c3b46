import ProcessPlan.Data.Yaml.Document
import ProcessPlan.Proofs.Data.Untagged
import ProcessPlan.Proofs.Data.Yaml.Scalar

/-!
# Forms of trees in a YAML document

A tree is a leaf, has entries on lines of their own, has none of those that it could have, or has a
tag. The form of a tree can be told from its document, after the mark of an item as well as after a
key.

## Main definitions

* `Yaml.Writable`: trees with tags that have no white space in them
* `Yaml.Ends`: what may follow the value of a field
* `Yaml.lines`: the entries of a list or a record, each on a line at a column
* `Yaml.Form`: the forms of trees

## Main results

* `Yaml.Block.lines_append_inj`: if the entries of a block can be told from what follows them, so
  can the block
* `Yaml.form_eq_of_hanging`, `Yaml.form_eq_of_following`: the document tells the form of the tree
-/

namespace ProcessPlan.Yaml

/-! ### Trees -/

/-- A tree as `Data.Untagged`, but with tags, in whose names there is no white space. -/
inductive Writable : Data → Prop where
  | bool (b : Bool) : Writable (.bool b)
  | int {n : Int} (h : n.natAbs < UInt64.size) : Writable (.int n)
  | text (s : String) : Writable (.text s)
  | list {items : List Data} (h : ∀ item ∈ items, Writable item) : Writable (.list items)
  | record {fields : List (String × Data)} (h : ∀ field ∈ fields, Writable field.2) :
    Writable (.record fields)
  | variant {name : String} {payload : Data}
    (hname : ∀ c ∈ name.toList, isBlankOrBreak c = false) (h : Writable payload) :
    Writable (.variant name payload)

theorem writable_of_untagged {d : Data} (h : d.Untagged) : Writable d := by
  induction h with
  | bool b => exact .bool b
  | int h => exact .int h
  | text s => exact .text s
  | list _ ih => exact .list ih
  | record _ ih => exact .record ih

/-! ### Truth values and integers -/

/-- The word that a truth value or an integer is written as. -/
inductive Atom : Data → String → Prop where
  | bool (b : Bool) : Atom (.bool b) (if b then "true" else "false")
  | int {n : Int} (h : n.natAbs < UInt64.size) : Atom (.int n) (toString n)

namespace Atom

variable {a b : Data} {v w : String}

theorem isWord (h : Atom a w) : IsWord w.toList := by
  cases h with
  | bool b => cases b <;> exact ⟨by decide, by simp [isBreak], by decide, by decide⟩
  | int h => exact isWord_toString _

theorem isImplicit (h : Atom a w) : isImplicit w := by
  cases h with
  | bool b => cases b <;> decide +kernel
  | int h => exact isImplicit_toString h

theorem hanging_eq (h : Atom a w) (column : Nat) : hanging column a = w ++ "\n" := by
  cases h with
  | bool b => cases b <;> rfl
  | int h => rfl

/-- A word stands for one truth value or integer. -/
theorem data_eq (ha : Atom a v) (hb : Atom b w) (h : v = w) : a = b := by
  have hbool : ∀ b b' : Bool, (if b then "true" else "false") = (if b' then "true" else "false") →
      b = b' := by decide
  -- There is a letter in the words of the truth values.
  have hne (b : Bool) (n : Int) : (if b then "true" else "false") ≠ toString n := by
    intro heq
    have hletter : 'e' ∈ (if b then "true" else "false").toList := by cases b <;> decide
    exact absurd (Json.isNumeral_of_mem_toString 'e' (heq ▸ hletter)) (by decide)
  cases ha with
  | bool b =>
    cases hb with
    | bool b' => rw [hbool b b' h]
    | int => exact absurd h (hne b _)
  | int =>
    cases hb with
    | bool b => exact absurd h.symm (hne b _)
    | int => rw [Json.toList_toString_inj (congrArg String.toList h)]

end Atom

/-! ### What follows a value -/

/-- What follows the value of a field is to the left of the value, and is no item of a list at the
column of its items. -/
structure Ends (list column : Nat) (rest : List Char) : Prop where
  leftOf : LeftOf column rest
  ne_item : ∀ tail, rest ≠ spaces list ++ '-' :: ' ' :: tail

theorem LeftOf.ends {column column' : Nat} {rest : List Char} (h : LeftOf column rest)
    (hle : column ≤ column') : Ends column column' rest where
  leftOf := h.mono hle
  ne_item tail := h.ne_spaces '-' (' ' :: tail)

theorem Ends.mono {list column column' : Nat} {rest : List Char} (h : Ends list column rest)
    (hle : column ≤ column') : Ends list column' rest where
  leftOf := h.leftOf.mono hle
  ne_item := h.ne_item

/-- A line that starts at a column starts to the left of the next column but one. -/
theorem leftOf_line (column : Nat) {c : Char} (hspace : c ≠ ' ') (hbreak : isBreak c = false)
    (tail : List Char) : LeftOf (column + 2) (spaces column ++ c :: tail) where
  ne_spaces d tail' := by
    rw [spaces, spaces, List.replicate_add, List.append_assoc, ne_eq, List.append_cancel_left_eq]
    rintro ⟨⟩
    exact hspace rfl
  ne_break d tail' hd := by
    cases column with
    | zero =>
      rintro ⟨⟩
      rw [hd] at hbreak
      cases hbreak
    | succ column =>
      rintro ⟨⟩
      exact absurd hd (by decide)

/-! ### Lines of a block -/

section Lines

variable {α : Type} {column : Nat} {write : α → String} {After Next : List Char → Prop}

/-- Entries of a block, each on a line at a column. -/
def lines (column : Nat) (write : α → String) (xs : List α) : List Char :=
  xs.flatMap fun x => spaces column ++ (write x).toList

theorem lines_cons_append (column : Nat) (write : α → String) (x : α) (xs : List α)
    (r : List Char) : lines column write (x :: xs) ++ r
      = spaces column ++ ((write x).toList ++ (lines column write xs ++ r)) := by
  simp [lines]

/-- What may follow an entry (`Next`), and what may follow the block (`After`), which is no further
entry. -/
structure Block (column : Nat) (write : α → String) (After Next : List Char → Prop) : Prop where
  next_of_after : ∀ {r}, After r → Next r
  next_entry : ∀ x r, Next (spaces column ++ ((write x).toList ++ r))
  after_ne_entry : ∀ {r}, After r → ∀ x r', r ≠ spaces column ++ ((write x).toList ++ r')

theorem Block.next_lines (h : Block column write After Next) (xs : List α) {r : List Char}
    (hr : After r) : Next (lines column write xs ++ r) := by
  cases xs with
  | nil => exact h.next_of_after hr
  | cons x xs =>
    rw [lines_cons_append]
    exact h.next_entry x _

/-- If every entry can be told from what follows it, then so can the block. -/
theorem Block.lines_append_inj (h : Block column write After Next) {xs ys : List α}
    {r r' : List Char} (hr : After r) (hr' : After r')
    (hsplit : ∀ x ∈ xs, ∀ y ∈ ys, ∀ r r', Next r → Next r' →
      (write x).toList ++ r = (write y).toList ++ r' → x = y ∧ r = r')
    (heq : lines column write xs ++ r = lines column write ys ++ r') : xs = ys ∧ r = r' := by
  induction xs generalizing ys with
  | nil =>
    cases ys with
    | nil => exact ⟨rfl, heq⟩
    | cons y ys =>
      rw [lines_cons_append] at heq
      exact absurd heq (h.after_ne_entry hr y _)
  | cons x xs ih =>
    cases ys with
    | nil =>
      rw [lines_cons_append] at heq
      exact absurd heq.symm (h.after_ne_entry hr' x _)
    | cons y ys =>
      rw [lines_cons_append, lines_cons_append, List.append_cancel_left_eq] at heq
      obtain ⟨rfl, hrest⟩ := hsplit x List.mem_cons_self y List.mem_cons_self _ _
        (h.next_lines xs hr) (h.next_lines ys hr') heq
      obtain ⟨rfl, rfl⟩ := ih (fun x hx y hy =>
        hsplit x (List.mem_cons_of_mem _ hx) y (List.mem_cons_of_mem _ hy)) hrest
      exact ⟨rfl, rfl⟩

theorem toList_onLine_cons (column : Nat) (write : α → String) (x : α) (xs : List α) :
    (onLine column ((x :: xs).map write)).toList
      = (write x).toList ++ lines column write xs := by
  simp [onLine, Text.toList_join_cons, padding, lines, List.flatMap_map]

/-- The first entry of a block on a line that has come to the column. -/
theorem spaces_append_onLine (column : Nat) (write : α → String) {xs : List α} (h : xs ≠ []) :
    spaces column ++ (onLine column (xs.map write)).toList = lines column write xs := by
  obtain ⟨x, xs, rfl⟩ := List.exists_cons_of_ne_nil h
  rw [toList_onLine_cons, ← List.append_assoc]
  rfl

theorem toList_onLines (column : Nat) (write : α → String) {xs : List α} (h : xs ≠ []) :
    (onLines column (xs.map write)).toList = '\n' :: lines column write xs := by
  rw [← spaces_append_onLine column write h]
  simp [onLines, padding]

end Lines

/-! ### Items and fields -/

/-- An item of a list at a column. -/
def item (column : Nat) (d : Data) : String := "- " ++ hanging (column + 2) d

theorem items_eq_map (column : Nat) (list : List Data) :
    items column list = list.map (item column) := by
  induction list with
  | nil => rfl
  | cons d rest ih => rw [items, ih, List.map_cons, item]

theorem toList_item_append (column : Nat) (d : Data) (r : List Char) :
    (item column d).toList ++ r = '-' :: ' ' :: ((hanging (column + 2) d).toList ++ r) := by
  simp [item]

theorem block_items (column : Nat) :
    Block column (item column) (Ends column (column + 2)) (LeftOf (column + 2)) where
  next_of_after h := h.leftOf
  next_entry d r := by
    rw [toList_item_append]
    exact leftOf_line column (by decide) (by decide) _
  after_ne_entry h d r' := by
    rw [toList_item_append]
    exact h.ne_item _

/-- A field of a record at a column. -/
def field (column : Nat) (f : String × Data) : String :=
  if isSimpleKey f.1 then written column f.1 ++ ":" ++ following column (column + 2) f.2
  else "? " ++ scalar (column + 2) f.1 ++ padding column ++ ": " ++ hanging (column + 2) f.2

theorem fields_eq_map (column : Nat) (record : List (String × Data)) :
    fields column record = record.map (field column) := by
  induction record with
  | nil => rfl
  | cons f rest ih => rw [fields, ih, List.map_cons, field]

theorem toList_field_of_isSimpleKey {column : Nat} {f : String × Data} (h : isSimpleKey f.1)
    (r : List Char) : (field column f).toList ++ r = (written column f.1).toList ++
      ':' :: ((following column (column + 2) f.2).toList ++ r) := by
  simp [field, h]

theorem toList_field_of_not_isSimpleKey {column : Nat} {f : String × Data}
    (h : isSimpleKey f.1 = false) (r : List Char) : (field column f).toList ++ r
      = '?' :: ' ' :: ((scalar (column + 2) f.1).toList ++
        (spaces column ++ ':' :: ' ' :: ((hanging (column + 2) f.2).toList ++ r))) := by
  simp [field, h, padding]

/-- A key that needs no mark is on one line. -/
theorem style_ne_literal_of_isSimpleKey {key : String} (h : isSimpleKey key) :
    style key ≠ .literal := by
  intro hliteral
  simp only [isSimpleKey, Bool.and_eq_true, Bool.not_eq_true', List.any_eq_false] at h
  exact h.2 '\n' (newline_mem_of_style_eq_literal hliteral) (by decide)

theorem exists_toList_written_eq (column : Nat) (s : String) :
    ∃ c tail, (written column s).toList = c :: tail ∧ c ≠ ' ' ∧ isBreak c = false := by
  cases hstyle : style s with
  | plain =>
    obtain ⟨c, tail, hw, -, hspace, hbreak, -⟩ := (isWord_of_style_eq_plain hstyle).1.exists_cons
    exact ⟨c, tail, (toList_written_of_plain hstyle).trans hw, hspace, hbreak⟩
  | singleQuoted =>
    exact ⟨'\'', _, by simp [written, hstyle, singleQuoted]; rfl, by decide, by decide⟩
  | doubleQuoted =>
    exact ⟨'"', _, by simp [written, hstyle, doubleQuoted]; rfl, by decide, by decide⟩
  | literal =>
    exact ⟨'|', _, by simp [written, hstyle, literal]; rfl, by decide, by decide⟩

theorem exists_toList_field_append_eq (column : Nat) (f : String × Data) (r : List Char) :
    ∃ c tail, (field column f).toList ++ r = c :: tail ∧ c ≠ ' ' ∧ isBreak c = false := by
  cases hkey : isSimpleKey f.1
  · exact ⟨'?', _, toList_field_of_not_isSimpleKey hkey r, by decide, by decide⟩
  · obtain ⟨c, tail, hwritten, hc⟩ := exists_toList_written_eq column f.1
    exact ⟨c, _, by rw [toList_field_of_isSimpleKey hkey, hwritten, List.cons_append], hc⟩

/-- A field does not start like an item. -/
theorem field_append_ne_item (column : Nat) (f : String × Data) (r tail : List Char) :
    (field column f).toList ++ r ≠ '-' :: ' ' :: tail := by
  cases hkey : isSimpleKey f.1
  · rw [toList_field_of_not_isSimpleKey hkey]
    rintro ⟨⟩
  · rw [toList_field_of_isSimpleKey hkey]
    exact written_append_ne_mark (Or.inr rfl) column f.1 _ tail

theorem block_fields (column : Nat) :
    Block column (field column) (LeftOf column) (Ends column (column + 2)) where
  next_of_after h := h.ends (by omega)
  next_entry f r := by
    refine ⟨?_, fun tail h => ?_⟩
    · obtain ⟨c, tail, hfield, hspace, hbreak⟩ := exists_toList_field_append_eq column f r
      rw [hfield]
      exact leftOf_line column hspace hbreak tail
    · exact field_append_ne_item column f r tail (List.append_cancel_left h)
  after_ne_entry h f r' := by
    obtain ⟨c, tail, hfield, -⟩ := exists_toList_field_append_eq column f r'
    rw [hfield]
    exact h.ne_spaces c tail

/-! ### Forms of trees -/

/-- The forms of trees, which tell one without entries from one with some. -/
inductive Form where
  | leaf
  | noItems
  | items
  | noFields
  | fields
  | tag
deriving DecidableEq

namespace Form

/-- The form of a tree. -/
def ofData : Data → Form
  | .list [] => noItems
  | .list (_ :: _) => items
  | .record [] => noFields
  | .record (_ :: _) => fields
  | .variant _ _ => tag
  | _ => leaf

/-- Whether a tree of a form starts on the line after its key. -/
def isBlock : Form → Bool
  | items | fields => true
  | _ => false

theorem eq_of_isBlock {form : Form} (h : form.isBlock) : form = items ∨ form = fields := by
  cases form <;> simp [isBlock] at h ⊢

/-- The form that the first characters tell, a leaf if they tell none. -/
def ofChars (cs : List Char) : Form :=
  if cs.head? = some '[' then noItems
  else if cs.head? = some '\x7b' then noFields
  else if cs.head? = some '!' then tag
  else if ['-', ' '].isPrefixOf cs then items
  else leaf

/-- What the first characters tell of a form: a field starts like a leaf. -/
def told : Form → Form
  | fields => leaf
  | form => form

theorem eq_list_nil {d : Data} (h : ofData d = noItems) : d = .list [] := by
  cases d with
  | list xs => cases xs with
    | nil => rfl
    | cons x xs => cases h
  | record fs => cases fs <;> cases h
  | _ => cases h

theorem eq_record_nil {d : Data} (h : ofData d = noFields) : d = .record [] := by
  cases d with
  | list xs => cases xs <;> cases h
  | record fs => cases fs with
    | nil => rfl
    | cons f fs => cases h
  | _ => cases h

theorem exists_items {d : Data} (h : ofData d = items) : ∃ x xs, d = .list (x :: xs) := by
  cases d with
  | list xs => cases xs with
    | nil => cases h
    | cons x xs => exact ⟨x, xs, rfl⟩
  | record fs => cases fs <;> cases h
  | _ => cases h

theorem exists_fields {d : Data} (h : ofData d = fields) : ∃ f fs, d = .record (f :: fs) := by
  cases d with
  | list xs => cases xs <;> cases h
  | record fs => cases fs with
    | nil => cases h
    | cons f fs => exact ⟨f, fs, rfl⟩
  | _ => cases h

theorem exists_tag {d : Data} (h : ofData d = tag) :
    ∃ name payload, d = .variant name payload := by
  cases d with
  | list xs => cases xs <;> cases h
  | record fs => cases fs <;> cases h
  | variant name payload => exact ⟨name, payload, rfl⟩
  | _ => cases h

theorem ofChars_of_not_mem {c : Char} {tail : List Char} (hc : c ∉ ['[', '\x7b', '!'])
    (hitem : ∀ rest, c :: tail ≠ '-' :: ' ' :: rest) : ofChars (c :: tail) = leaf := by
  simp only [List.mem_cons, List.not_mem_nil, or_false, not_or] at hc
  have hprefix : ¬ ['-', ' '].isPrefixOf (c :: tail) = true := by
    rw [List.isPrefixOf_iff_prefix]
    rintro ⟨rest, hrest⟩
    exact hitem rest hrest.symm
  simp only [ofChars, List.head?_cons, Option.some.injEq, hc, if_false, hprefix]
  rfl

theorem ofChars_word_append {w : List Char} (hw : IsWord w) (r : List Char) :
    ofChars (w ++ r) = leaf := by
  have hitem := hw.append_ne_mark (Or.inr rfl : '-' = '?' ∨ '-' = '-') r
  obtain ⟨c, tail, rfl, hc, -⟩ := hw.exists_cons
  have hmarks : ∀ mark ∈ ['[', '\x7b', '!'], mark ∈ indicators := by simp [indicators]
  exact ofChars_of_not_mem (fun h => hc (hmarks c h)) hitem

theorem ofChars_written_append (column : Nat) (s : String) (r : List Char) :
    ofChars ((written column s).toList ++ r) = leaf := by
  cases hstyle : style s with
  | plain =>
    rw [toList_written_of_plain hstyle]
    exact ofChars_word_append (isWord_of_style_eq_plain hstyle).1 r
  | singleQuoted => simp [written, hstyle, singleQuoted]; rfl
  | doubleQuoted => simp [written, hstyle, doubleQuoted]; rfl
  | literal => simp [written, hstyle, literal]; rfl

end Form

section Forms

variable {list column : Nat} {a b : Data} {r r' : List Char}

theorem spaces_append_hanging_list (column : Nat) {xs : List Data} (h : xs ≠ []) :
    spaces column ++ (hanging column (.list xs)).toList = lines column (item column) xs := by
  rw [← spaces_append_onLine column (item column) h, ← items_eq_map]
  simp [hanging, h]

theorem spaces_append_hanging_record (column : Nat) {fs : List (String × Data)} (h : fs ≠ []) :
    spaces column ++ (hanging column (.record fs)).toList = lines column (field column) fs := by
  rw [← spaces_append_onLine column (field column) h, ← fields_eq_map]
  simp [hanging, h]

theorem toList_hanging_list_append (column : Nat) (x : Data) (xs : List Data) (r : List Char) :
    (hanging column (.list (x :: xs))).toList ++ r
      = (item column x).toList ++ (lines column (item column) xs ++ r) := by
  rw [hanging, if_neg (by simp), items_eq_map, toList_onLine_cons, List.append_assoc]

theorem toList_hanging_record_append (column : Nat) (f : String × Data)
    (fs : List (String × Data)) (r : List Char) :
    (hanging column (.record (f :: fs))).toList ++ r
      = (field column f).toList ++ (lines column (field column) fs ++ r) := by
  rw [hanging, if_neg (by simp), fields_eq_map, toList_onLine_cons, List.append_assoc]

theorem Atom.toList_hanging_append {w : String} (h : Atom a w) (column : Nat) (r : List Char) :
    (hanging column a).toList ++ r = w.toList ++ '\n' :: r := by
  simp [h.hanging_eq]

/-- A leaf is an atom or a text. -/
theorem Writable.atom_or_text (ha : Writable a) (hleaf : Form.ofData a = .leaf) :
    (∃ w, Atom a w) ∨ ∃ s, a = .text s := by
  cases ha with
  | bool b => exact Or.inl ⟨_, .bool b⟩
  | int h => exact Or.inl ⟨_, .int h⟩
  | text s => exact Or.inr ⟨s, rfl⟩
  | @list items => cases items <;> cases hleaf
  | @record fields => cases fields <;> cases hleaf
  | variant => cases hleaf

/-- The first characters of a tree tell its form as far as they tell it. -/
theorem ofChars_hanging_append (column : Nat) (ha : Writable a) (r : List Char) :
    Form.ofChars ((hanging column a).toList ++ r) = (Form.ofData a).told := by
  by_cases hleaf : Form.ofData a = .leaf
  · rw [hleaf]
    rcases ha.atom_or_text hleaf with ⟨w, hw⟩ | ⟨s, rfl⟩
    · rw [hw.toList_hanging_append]
      exact Form.ofChars_word_append hw.isWord _
    · obtain ⟨x, hx⟩ := exists_toList_scalar_append_eq column s r
      rw [hanging, hx]
      exact Form.ofChars_written_append column s x
  · cases ha with
    | bool | int | text => exact absurd rfl hleaf
    | @list items =>
      cases items with
      | nil =>
        simp [hanging]
        rfl
      | cons x xs =>
        rw [toList_hanging_list_append, toList_item_append]
        rfl
    | @record fields =>
      cases fields with
      | nil =>
        simp [hanging]
        rfl
      | cons f fs =>
        rw [toList_hanging_record_append]
        cases hkey : isSimpleKey f.1
        · rw [toList_field_of_not_isSimpleKey hkey]
          rfl
        · rw [toList_field_of_isSimpleKey hkey]
          exact Form.ofChars_written_append column f.1 _
    | variant =>
      simp [hanging]
      rfl

/-! ### After a key -/

/-- A leaf and a tree without entries follow a key on its line. -/
theorem toList_following_of_inline (hblock : (Form.ofData a).isBlock = false)
    (htag : Form.ofData a ≠ .tag) :
    (following list column a).toList = ' ' :: (hanging column a).toList := by
  cases a with
  | bool b => cases b <;> simp [following, hanging]
  | list items => cases items <;> simp_all [following, hanging, Form.ofData, Form.isBlock]
  | record fields => cases fields <;> simp_all [following, hanging, Form.ofData, Form.isBlock]
  | variant => exact absurd rfl htag
  | _ => simp [following, hanging]

theorem toList_following_list (list column : Nat) {xs : List Data} (h : xs ≠ []) :
    (following list column (.list xs)).toList = '\n' :: lines list (item list) xs := by
  rw [← toList_onLines list (item list) h, ← items_eq_map]
  simp [following, h]

theorem toList_following_record (list column : Nat) {fs : List (String × Data)} (h : fs ≠ []) :
    (following list column (.record fs)).toList = '\n' :: lines column (field column) fs := by
  rw [← toList_onLines column (field column) h, ← fields_eq_map]
  simp [following, h]

theorem toList_following_variant (list column : Nat) (name : String) (payload : Data) :
    (following list column (.variant name payload)).toList
      = ' ' :: '!' :: (name.toList ++ (following list column payload).toList) := by
  simp [following]

/-- What follows a key starts a line or stands behind a space. -/
theorem exists_toList_following_eq (list column : Nat) (d : Data) :
    ∃ tail, (following list column d).toList
      = (if (Form.ofData d).isBlock then '\n' else ' ') :: tail := by
  cases hform : Form.ofData d with
  | items =>
    obtain ⟨x, xs, rfl⟩ := Form.exists_items hform
    exact ⟨_, toList_following_list list column (List.cons_ne_nil x xs)⟩
  | fields =>
    obtain ⟨f, fs, rfl⟩ := Form.exists_fields hform
    exact ⟨_, toList_following_record list column (List.cons_ne_nil f fs)⟩
  | tag =>
    obtain ⟨name, payload, rfl⟩ := Form.exists_tag hform
    exact ⟨_, toList_following_variant list column name payload⟩
  | _ => exact ⟨_, toList_following_of_inline (by simp [hform, Form.isBlock]) (by simp [hform])⟩

theorem exists_toList_following_append_eq (list column : Nat) (d : Data) (r : List Char) :
    ∃ b tail, (following list column d).toList ++ r = b :: tail ∧ isBlankOrBreak b := by
  obtain ⟨tail, htail⟩ := exists_toList_following_eq list column d
  refine ⟨_, tail ++ r, congrArg (· ++ r) htail, ?_⟩
  split <;> decide

/-! ### The form of a tree -/

/-- A leaf is not written like a field. -/
theorem leaf_append_ne_field (ha : Writable a) (hleaf : Form.ofData a = .leaf) (f : String × Data) :
    (hanging column a).toList ++ r ≠ (field column f).toList ++ r' := by
  cases hkey : isSimpleKey f.1
  · rw [toList_field_of_not_isSimpleKey hkey]
    rcases ha.atom_or_text hleaf with ⟨w, hw⟩ | ⟨s, rfl⟩
    · rw [hw.toList_hanging_append]
      exact hw.isWord.append_ne_mark (Or.inl rfl) _ _
    · obtain ⟨x, hx⟩ := exists_toList_scalar_append_eq column s r
      rw [hanging, hx]
      exact written_append_ne_mark (Or.inl rfl) column s x _
  · obtain ⟨b, tail, hfollowing, hb⟩ :=
      exists_toList_following_append_eq column (column + 2) f.2 r'
    rw [toList_field_of_isSimpleKey hkey, hfollowing]
    rcases ha.atom_or_text hleaf with ⟨w, hw⟩ | ⟨s, rfl⟩
    · rw [hw.toList_hanging_append]
      exact word_append_ne_key hw.isWord hb
    · exact scalar_append_ne_key (style_ne_literal_of_isSimpleKey hkey) hb

theorem leaf_append_ne_fields (ha : Writable a) (hleaf : Form.ofData a = .leaf)
    (hfields : Form.ofData b = .fields) :
    (hanging column a).toList ++ r ≠ (hanging column b).toList ++ r' := by
  obtain ⟨f, fs, rfl⟩ := Form.exists_fields hfields
  rw [toList_hanging_record_append]
  exact leaf_append_ne_field ha hleaf f

/-- What stands after the mark of an item tells the form of the tree. -/
theorem form_eq_of_hanging (ha : Writable a) (hb : Writable b)
    (h : (hanging column a).toList ++ r = (hanging column b).toList ++ r') :
    Form.ofData a = Form.ofData b := by
  have htold : (Form.ofData a).told = (Form.ofData b).told := by
    rw [← ofChars_hanging_append column ha r, h, ofChars_hanging_append column hb r']
  cases hfa : Form.ofData a <;> cases hfb : Form.ofData b <;> rw [hfa, hfb] at htold
  any_goals first | rfl | cases htold
  · exact absurd h (leaf_append_ne_fields ha hfa hfb)
  · exact absurd h.symm (leaf_append_ne_fields hb hfb hfa)

/-- The items of a list after a key are not the fields of a record. -/
theorem items_append_ne_fields (hle : list ≤ column) (x : Data) (xs : List Data)
    (f : String × Data) (fs : List (String × Data)) :
    lines list (item list) (x :: xs) ++ r ≠ lines column (field column) (f :: fs) ++ r' := by
  rw [lines_cons_append, lines_cons_append, toList_item_append]
  obtain ⟨k, rfl⟩ := Nat.exists_eq_add_of_le hle
  rw [spaces, spaces, List.replicate_add, List.append_assoc, ne_eq, List.append_cancel_left_eq]
  cases k with
  | zero => exact fun h => field_append_ne_item _ f _ _ h.symm
  | succ k => rintro ⟨⟩

theorem items_ne_fields_of_following (hle : list ≤ column) (hitems : Form.ofData a = .items)
    (hfields : Form.ofData b = .fields) :
    (following list column a).toList ++ r ≠ (following list column b).toList ++ r' := by
  obtain ⟨x, xs, rfl⟩ := Form.exists_items hitems
  obtain ⟨f, fs, rfl⟩ := Form.exists_fields hfields
  rw [toList_following_list list column (List.cons_ne_nil x xs),
    toList_following_record list column (List.cons_ne_nil f fs)]
  exact fun h => items_append_ne_fields hle x xs f fs (List.cons.inj h).2

/-- The first characters after a key and a space tell the form of the tree. -/
theorem exists_ofChars_following_append (list column : Nat) (ha : Writable a)
    (hblock : (Form.ofData a).isBlock = false) (r : List Char) :
    ∃ cs, (following list column a).toList ++ r = ' ' :: cs ∧
      Form.ofChars cs = Form.ofData a := by
  by_cases htag : Form.ofData a = .tag
  · obtain ⟨name, payload, rfl⟩ := Form.exists_tag htag
    exact ⟨_, by rw [toList_following_variant, List.cons_append], rfl⟩
  · refine ⟨(hanging column a).toList ++ r, ?_, ?_⟩
    · rw [toList_following_of_inline hblock htag, List.cons_append]
    · rw [ofChars_hanging_append column ha]
      cases hform : Form.ofData a with
      | fields => rw [hform] at hblock; cases hblock
      | _ => rfl

/-- What stands after a key tells the form of the tree. -/
theorem form_eq_of_following (ha : Writable a) (hb : Writable b) (hle : list ≤ column)
    (h : (following list column a).toList ++ r = (following list column b).toList ++ r') :
    Form.ofData a = Form.ofData b := by
  have hblocks : (Form.ofData a).isBlock = (Form.ofData b).isBlock := by
    obtain ⟨tail, htail⟩ := exists_toList_following_eq list column a
    obtain ⟨tail', htail'⟩ := exists_toList_following_eq list column b
    rw [htail, htail'] at h
    have hhead := (List.cons.inj h).1
    cases hfa : (Form.ofData a).isBlock <;> cases hfb : (Form.ofData b).isBlock <;>
      simp [hfa, hfb] at hhead ⊢
  cases hblock : (Form.ofData a).isBlock with
  | false =>
    obtain ⟨cs, hcs, hform⟩ := exists_ofChars_following_append list column ha hblock r
    obtain ⟨cs', hcs', hform'⟩ :=
      exists_ofChars_following_append list column hb (hblocks ▸ hblock) r'
    rw [hcs, hcs'] at h
    rw [← hform, (List.cons.inj h).2, hform']
  | true =>
    rcases Form.eq_of_isBlock hblock with hfa | hfa <;>
      rcases Form.eq_of_isBlock (hblocks ▸ hblock) with hfb | hfb
    · rw [hfa, hfb]
    · exact absurd h (items_ne_fields_of_following hle hfa hfb)
    · exact absurd h.symm (items_ne_fields_of_following hle hfb hfa)
    · rw [hfa, hfb]

end Forms

end ProcessPlan.Yaml
