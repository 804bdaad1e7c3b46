import Mathlib.Data.List.Basic
import ProcessPlan.Data.Json
import ProcessPlan.Proofs.Data.Untagged
import ProcessPlan.Proofs.Text

/-!
# JSON documents are unambiguous

A JSON document is the document of only one tree without tags. The first character of a written form
tells which of the five forms of a tree it is; after that, a form can be taken off the front of what
follows it, since what follows a value starts with a comma or a new line.

## Main definitions

* `Json.EndsValue`, `Json.Splits`: what can follow a value, and a written form that can be taken off
  the front of it

## Main results

* `Json.splits_value`: the written form of a tree can be taken off the front of what follows it
* `Json.document_inj`: a document determines its tree
-/

namespace ProcessPlan.Json

open Data

/-- Nothing follows, or what goes on with the list or record that holds a value. -/
def EndsValue (rest : List Char) : Prop := ∀ c ∈ rest.head?, c = ',' ∨ c = '\n'

/-! ### Texts -/

/-- The characters that are escaped. -/
def escaped : List Char := '"' :: '\\' :: (List.range 0x20).map Char.ofNat

theorem mem_escaped_of_lt {c : Char} (h : c.toNat < 0x20) : c ∈ escaped := by
  have hmem : Char.ofNat c.toNat ∈ (List.range 0x20).map Char.ofNat :=
    List.mem_map_of_mem (List.mem_range.2 h)
  rw [Char.ofNat_toNat] at hmem
  exact List.mem_cons_of_mem _ (List.mem_cons_of_mem _ hmem)

theorem quotedChar_of_not_mem {c : Char} (h : c ∉ escaped) : quotedChar c = [c] := by
  unfold quotedChar
  split
  case h_8 =>
    split
    · next hlt => exact absurd (mem_escaped_of_lt hlt) h
    · rfl
  all_goals exact absurd (by decide +kernel) h

theorem quotedChar_of_mem {c : Char} (h : c ∈ escaped) : ∃ rest, quotedChar c = '\\' :: rest := by
  have hhead : escaped.all (fun c => (quotedChar c).head? == some '\\') = true := by
    decide +kernel
  exact List.head?_eq_some_iff.1 (beq_iff_eq.1 (List.all_eq_true.1 hhead c h))

/-- No escape is the start of another one. -/
theorem eq_of_quotedChar_isPrefix {c d : Char} (hc : c ∈ escaped) (hd : d ∈ escaped)
    (h : quotedChar c <+: quotedChar d) : c = d := by
  have hall : escaped.all (fun c => escaped.all fun d =>
      !(quotedChar c).isPrefixOf (quotedChar d) || c == d) = true := by
    decide +kernel
  have hcd := List.all_eq_true.1 (List.all_eq_true.1 hall c hc) d hd
  simpa [List.isPrefixOf_iff_prefix.2 h] using hcd

/-- What is written as it is starts with no escape. -/
theorem quotedChar_append_ne {c d : Char} (hc : c ∈ escaped) (hd : d ∉ escaped)
    (r r' : List Char) : quotedChar c ++ r ≠ d :: r' := by
  obtain ⟨rest, hrest⟩ := quotedChar_of_mem hc
  rw [hrest]
  rintro ⟨⟩
  exact hd (by decide +kernel)

/-- A character of a text in front of anything determines both. -/
theorem quotedChar_append_inj {c d : Char} {r r' : List Char}
    (h : quotedChar c ++ r = quotedChar d ++ r') : c = d ∧ r = r' := by
  by_cases hc : c ∈ escaped <;> by_cases hd : d ∈ escaped
  · have hcd : c = d := by
      rcases List.prefix_or_prefix_of_prefix (List.prefix_append _ r)
        (h ▸ List.prefix_append (quotedChar d) r') with hstart | hstart
      · exact eq_of_quotedChar_isPrefix hc hd hstart
      · exact (eq_of_quotedChar_isPrefix hd hc hstart).symm
    subst hcd
    exact ⟨rfl, List.append_cancel_left h⟩
  · rw [quotedChar_of_not_mem hd] at h
    exact absurd h (quotedChar_append_ne hc hd r r')
  · rw [quotedChar_of_not_mem hc] at h
    exact absurd h.symm (quotedChar_append_ne hd hc r' r)
  · rw [quotedChar_of_not_mem hc, quotedChar_of_not_mem hd] at h
    exact List.cons.inj h

/-- The closing quote starts the written form of no character. -/
theorem quotedChar_append_ne_quote (c : Char) (r r' : List Char) :
    quotedChar c ++ r ≠ '"' :: r' := by
  intro h
  by_cases hc : c ∈ escaped
  · obtain ⟨rest, hrest⟩ := quotedChar_of_mem hc
    rw [hrest] at h
    cases h
  · rw [quotedChar_of_not_mem hc] at h
    cases h
    exact hc (by decide +kernel)

/-- A text in front of anything determines both. -/
theorem quoted_append_inj {s t : String} {r r' : List Char}
    (h : (quoted s).toList ++ r = (quoted t).toList ++ r') : s = t ∧ r = r' := by
  have hchars : s.toList.flatMap quotedChar ++ '"' :: r
      = t.toList.flatMap quotedChar ++ '"' :: r' := by
    simpa [quoted] using h
  obtain ⟨hlist, rfl⟩ := Text.flatMap_append_inj (fun _ _ _ _ => quotedChar_append_inj)
    quotedChar_append_ne_quote hchars
  exact ⟨String.toList_injective hlist, rfl⟩

/-! ### Numbers -/

/-- The characters of integers. -/
def isNumeral (c : Char) : Bool := c == '-' || c.isDigit

theorem toList_toString_ofNat (k : Nat) :
    (toString (Int.ofNat k)).toList = Nat.toDigits 10 k := by
  show k.repr.toList = _
  rw [Nat.repr_eq_ofList_toDigits, String.toList_ofList]

theorem toList_toString_negSucc (k : Nat) :
    (toString (Int.negSucc k)).toList = '-' :: Nat.toDigits 10 (k + 1) := by
  show ("-" ++ (k + 1).repr).toList = _
  rw [String.toList_append, Nat.repr_eq_ofList_toDigits, String.toList_ofList]
  simp

theorem isDigit_of_mem_toDigits {k : Nat} {c : Char} (h : c ∈ Nat.toDigits 10 k) : c.isDigit :=
  Nat.isDigit_of_mem_toDigits (by decide) (by decide) h

theorem toDigits_inj {k l : Nat} (h : Nat.toDigits 10 k = Nat.toDigits 10 l) : k = l := by
  simpa using congrArg (Nat.ofDigitChars 10 · 0) h

theorem isNumeral_of_mem_toString {n : Int} : ∀ c ∈ (toString n).toList, isNumeral c := by
  cases n with
  | ofNat k =>
    intro c h
    simp [isNumeral, isDigit_of_mem_toDigits (toList_toString_ofNat k ▸ h)]
  | negSucc k =>
    intro c h
    rw [toList_toString_negSucc] at h
    rcases List.mem_cons.1 h with rfl | h
    · rfl
    · simp [isNumeral, isDigit_of_mem_toDigits h]

theorem toList_toString_ne_nil (n : Int) : (toString n).toList ≠ [] := by
  cases n with
  | ofNat k =>
    rw [toList_toString_ofNat]
    exact Nat.toDigits_ne_nil
  | negSucc k =>
    rw [toList_toString_negSucc]
    exact List.cons_ne_nil _ _

theorem toList_toString_inj {n m : Int} (h : (toString n).toList = (toString m).toList) :
    n = m := by
  have hsign (k l : Nat) : Nat.toDigits 10 k ≠ '-' :: Nat.toDigits 10 l := fun heq =>
    absurd (isDigit_of_mem_toDigits (heq ▸ List.mem_cons_self)) (by decide)
  cases n with
  | ofNat k =>
    cases m with
    | ofNat l =>
      rw [toList_toString_ofNat, toList_toString_ofNat] at h
      rw [toDigits_inj h]
    | negSucc l =>
      rw [toList_toString_ofNat, toList_toString_negSucc] at h
      exact absurd h (hsign k (l + 1))
  | negSucc k =>
    cases m with
    | ofNat l =>
      rw [toList_toString_negSucc, toList_toString_ofNat] at h
      exact absurd h.symm (hsign l (k + 1))
    | negSucc l =>
      rw [toList_toString_negSucc, toList_toString_negSucc] at h
      rw [Nat.succ.inj (toDigits_inj (List.cons.inj h).2)]

/-- An integer in front of what can follow it determines both. -/
theorem toString_append_inj {n m : Int} {r r' : List Char} (hr : EndsValue r) (hr' : EndsValue r')
    (h : (toString n).toList ++ r = (toString m).toList ++ r') : n = m ∧ r = r' := by
  have hend {r : List Char} (hr : EndsValue r) : ∀ c ∈ r.head?, isNumeral c = false := by
    intro c hc
    rcases hr c hc with rfl | rfl <;> rfl
  obtain ⟨hdigits, rfl⟩ := Text.append_inj_of_all isNumeral_of_mem_toString
    isNumeral_of_mem_toString (hend hr) (hend hr') h
  exact ⟨toList_toString_inj hdigits, rfl⟩

/-! ### Lists and records -/

theorem items_eq_map (level : Nat) (list : List Data) :
    items level list = list.map (value level) := by
  induction list with
  | nil => rfl
  | cons item rest ih => rw [items, ih, List.map_cons]

/-- A field of a record. -/
def field (level : Nat) (f : String × Data) : String := quoted f.1 ++ ": " ++ value level f.2

theorem fields_eq_map (level : Nat) (record : List (String × Data)) :
    fields level record = record.map (field level) := by
  induction record with
  | nil => rfl
  | cons f rest ih => rw [fields, ih, List.map_cons, field]

/-- A written form can be taken off the front of what can follow it. -/
def Splits {α : Type} (write : α → String) (P : α → Prop) (a : α) : Prop :=
  ∀ b, P b → ∀ r r', EndsValue r → EndsValue r' →
    (write a).toList ++ r = (write b).toList ++ r' → a = b ∧ r = r'

section Bracketed

variable {α : Type} {write : α → String} {P : α → Prop} {xs ys : List α} {r r' : List Char}

/-- The written forms of all but the first of a list, each after a comma. -/
def others (write : α → String) (level : Nat) (xs : List α) : List Char :=
  xs.flatMap fun x => ',' :: ((newline level).toList ++ (write x).toList)

theorem endsValue_others (level : Nat) (xs : List α) (r : List Char) :
    EndsValue (others write level xs ++ '\n' :: r) := by
  cases xs <;> simp [others, EndsValue]

theorem others_append_inj {level : Nat} (hxs : ∀ x ∈ xs, Splits write P x) (hys : ∀ y ∈ ys, P y)
    (h : others write level xs ++ '\n' :: r = others write level ys ++ '\n' :: r') :
    xs = ys ∧ r = r' := by
  induction xs generalizing ys with
  | nil =>
    cases ys with
    | nil => exact ⟨rfl, List.tail_eq_of_cons_eq h⟩
    | cons y ys => simp [others] at h
  | cons x xs ih =>
    cases ys with
    | nil => simp [others] at h
    | cons y ys =>
      have hrest : (write x).toList ++ (others write level xs ++ '\n' :: r)
          = (write y).toList ++ (others write level ys ++ '\n' :: r') := by
        simpa [others] using h
      obtain ⟨rfl, hothers⟩ := hxs x List.mem_cons_self y (hys y List.mem_cons_self) _ _
        (endsValue_others level xs r) (endsValue_others level ys r') hrest
      obtain ⟨rfl, rfl⟩ := ih (fun x hx => hxs x (List.mem_cons_of_mem _ hx))
        (fun y hy => hys y (List.mem_cons_of_mem _ hy)) hothers
      exact ⟨rfl, rfl⟩

theorem toList_bracketed_cons (level : Nat) (opening closing : String) (x : α) (xs : List α) :
    (bracketed level opening closing ((x :: xs).map write)).toList =
      opening.toList ++ '\n' :: (List.replicate (2 * (level + 1)) ' ' ++
        ((write x).toList ++ (others write (level + 1) xs ++
          '\n' :: (List.replicate (2 * level) ' ' ++ closing.toList)))) := by
  simp [bracketed, Text.toList_join_cons, others, newline, List.flatMap_map]

theorem bracketed_append_inj {level : Nat} {opening closing : String} {c : Char}
    (hclosing : closing.toList = [c]) (hc : c ≠ '\n') (hxs : ∀ x ∈ xs, Splits write P x)
    (hys : ∀ y ∈ ys, P y)
    (h : (bracketed level opening closing (xs.map write)).toList ++ r
      = (bracketed level opening closing (ys.map write)).toList ++ r') :
    xs = ys ∧ r = r' := by
  cases xs with
  | nil =>
    cases ys with
    | nil => exact ⟨rfl, List.append_cancel_left h⟩
    | cons y ys =>
      rw [toList_bracketed_cons] at h
      simp [bracketed, hclosing, hc] at h
  | cons x xs =>
    cases ys with
    | nil =>
      rw [toList_bracketed_cons] at h
      simp [bracketed, hclosing, hc.symm] at h
    | cons y ys =>
      rw [toList_bracketed_cons, toList_bracketed_cons] at h
      simp only [List.append_assoc, List.cons_append, List.append_cancel_left_eq,
        List.cons.injEq, true_and] at h
      obtain ⟨rfl, hothers⟩ := hxs x List.mem_cons_self y (hys y List.mem_cons_self) _ _
        (endsValue_others _ xs _) (endsValue_others _ ys _) h
      obtain ⟨rfl, hrest⟩ := others_append_inj (fun x hx => hxs x (List.mem_cons_of_mem _ hx))
        (fun y hy => hys y (List.mem_cons_of_mem _ hy)) hothers
      exact ⟨rfl, by simpa using hrest⟩

end Bracketed

/-! ### Trees -/

/-- The forms of trees without tags. -/
inductive Form where
  | bool
  | int
  | text
  | list
  | record
deriving DecidableEq

/-- The form of the tree that is written from a character on. -/
def Form.ofChar (c : Char) : Form :=
  if c = '"' then text
  else if c = '[' then list
  else if c = '\x7b' then record
  else if isNumeral c then int
  else bool

/-- The form of a tree, a record for one with a tag. -/
def Form.ofData : Data → Form
  | .bool _ => bool
  | .int _ => int
  | .text _ => text
  | .list _ => list
  | _ => record

theorem Form.ofChar_of_isNumeral {c : Char} (h : isNumeral c) : ofChar c = int := by
  have hne (mark : Char) (hmark : isNumeral mark = false) : c ≠ mark := by
    rintro rfl
    rw [h] at hmark
    cases hmark
  simp [ofChar, hne '"' rfl, hne '[' rfl, hne '\x7b' rfl, h]

/-- The first character of a written form tells the form of the tree. -/
theorem ofChar_head_value (level : Nat) {d : Data} (h : d.Untagged) :
    (value level d).toList.head?.map Form.ofChar = some (Form.ofData d) := by
  cases h with
  | bool b => cases b <;> simp [value] <;> rfl
  | @int n hn =>
    cases hlist : (toString n).toList with
    | nil => exact absurd hlist (toList_toString_ne_nil n)
    | cons c rest =>
      have hc : isNumeral c := isNumeral_of_mem_toString c (hlist ▸ List.mem_cons_self)
      rw [value, hlist, List.head?_cons, Option.map_some, Form.ofChar_of_isNumeral hc, Form.ofData]
  | text s => simp [value, quoted]; rfl
  | @list items h =>
    cases items with
    | nil => simp [value, items, bracketed]; rfl
    | cons item rest =>
      rw [value, items_eq_map, toList_bracketed_cons]
      rfl
  | @record fields h =>
    cases fields with
    | nil => simp [value, Json.fields, bracketed]; rfl
    | cons f rest =>
      rw [value, fields_eq_map, toList_bracketed_cons]
      rfl

theorem form_eq {level : Nat} {a b : Data} {r r' : List Char} (ha : a.Untagged) (hb : b.Untagged)
    (h : (value level a).toList ++ r = (value level b).toList ++ r') :
    Form.ofData a = Form.ofData b := by
  have hhead := congrArg (fun cs => cs.head?.map Form.ofChar) h
  simpa [List.head?_append, Option.map_or, ofChar_head_value level ha, ofChar_head_value level hb]
    using hhead

theorem splits_field {level : Nat} {f : String × Data}
    (h : Splits (value level) Untagged f.2) :
    Splits (field level) (fun f => f.2.Untagged) f := by
  intro g hg r r' hr hr' heq
  simp only [field, String.toList_append, List.append_assoc] at heq
  obtain ⟨hkey, hvalue⟩ := quoted_append_inj heq
  obtain ⟨hdata, rfl⟩ := h g.2 hg r r' hr hr' (by simpa using hvalue)
  exact ⟨Prod.ext hkey hdata, rfl⟩

/-- A tree without tags in front of what can follow it: both can be told. -/
theorem splits_value {a : Data} (ha : a.Untagged) (level : Nat) :
    Splits (value level) Untagged a := by
  induction ha generalizing level with
  | bool b =>
    intro d hd r r' hr hr' h
    have hform := form_eq (.bool b) hd h
    cases hd with
    | bool b' => cases b <;> cases b' <;> simp_all [value]
    | _ => cases hform
  | int hn =>
    intro d hd r r' hr hr' h
    have hform := form_eq (.int hn) hd h
    cases hd with
    | int hm =>
      obtain ⟨rfl, rfl⟩ := toString_append_inj hr hr' h
      exact ⟨rfl, rfl⟩
    | _ => cases hform
  | text s =>
    intro d hd r r' hr hr' h
    have hform := form_eq (.text s) hd h
    cases hd with
    | text t =>
      obtain ⟨rfl, rfl⟩ := quoted_append_inj h
      exact ⟨rfl, rfl⟩
    | _ => cases hform
  | list hitems ih =>
    intro d hd r r' hr hr' h
    have hform := form_eq (.list hitems) hd h
    cases hd with
    | list hitems' =>
      rw [value, value, items_eq_map, items_eq_map] at h
      obtain ⟨rfl, rfl⟩ := bracketed_append_inj (c := ']') rfl (by decide)
        (fun item hitem => ih item hitem (level + 1)) hitems' h
      exact ⟨rfl, rfl⟩
    | _ => cases hform
  | record hfields ih =>
    intro d hd r r' hr hr' h
    have hform := form_eq (.record hfields) hd h
    cases hd with
    | record hfields' =>
      rw [value, value, fields_eq_map, fields_eq_map] at h
      obtain ⟨rfl, rfl⟩ := bracketed_append_inj (c := '\x7d') rfl (by decide)
        (fun f hf => splits_field (ih f hf (level + 1))) hfields' h
      exact ⟨rfl, rfl⟩
    | _ => cases hform

/-- A document is that of one tree without tags. -/
theorem document_inj {a b : Data} (ha : a.Untagged) (hb : b.Untagged)
    (h : document a = document b) : a = b := by
  have hends : EndsValue ['\n'] := by simp [EndsValue]
  have hvalue : (value 0 a).toList ++ ['\n'] = (value 0 b).toList ++ ['\n'] := by
    simpa [document] using congrArg String.toList h
  exact (splits_value ha 0 b hb _ _ hends hends hvalue).1

end ProcessPlan.Json
