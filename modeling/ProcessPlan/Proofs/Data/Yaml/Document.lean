import ProcessPlan.Proofs.Data.Yaml.Form

/-!
# YAML documents are unambiguous

By induction on a tree, it can be told from what follows it. What follows depends on where the tree
stands: the items of a list may start at the column of the field that holds the list, so that the
next field must not be taken for an item; fields start further in than what follows the record.

## Main definitions

* `Yaml.Hangs`: a tree can be told from what follows it after the mark of an item
* `Yaml.Follows`: a tree can be told from what follows it after a key or a tag

## Main results

* `Yaml.hangs_and_follows`: every tree can be told from what follows it
* `Yaml.document_inj`: a document is that of one tree
-/

namespace ProcessPlan.Yaml

/-! ### Leaves -/

section Leaves

variable {column : Nat} {a b : Data} {r r' : List Char}

/-- Leaves in front of what starts to the left of them. -/
theorem leaf_append_inj (ha : Writable a) (hleaf : Form.ofData a = .leaf) (hb : Writable b)
    (hleaf' : Form.ofData b = .leaf) (hr : LeftOf column r) (hr' : LeftOf column r')
    (h : (hanging column a).toList ++ r = (hanging column b).toList ++ r') :
    a = b ∧ r = r' := by
  -- A plain text is not taken for a truth value or an integer.
  have hne {d : Data} {w s : String} {r r' : List Char} (hw : Atom d w) :
      w.toList ++ '\n' :: r ≠ (scalar column s).toList ++ r' := by
    intro heq
    obtain ⟨hplain, hlist, -⟩ := eq_toList_of_word_append hw.isWord heq
    have himplicit := hw.isImplicit
    rw [String.toList_injective hlist, (isWord_of_style_eq_plain hplain).2] at himplicit
    cases himplicit
  rcases ha.atom_or_text hleaf with ⟨v, hv⟩ | ⟨s, rfl⟩ <;>
    rcases hb.atom_or_text hleaf' with ⟨w, hw⟩ | ⟨t, rfl⟩
  · rw [hv.toList_hanging_append, hw.toList_hanging_append] at h
    obtain ⟨hlist, rfl⟩ := hv.isWord.append_newline_inj hw.isWord h
    exact ⟨hv.data_eq hw (String.toList_injective hlist), rfl⟩
  · rw [hv.toList_hanging_append] at h
    exact absurd h (hne hv)
  · rw [hw.toList_hanging_append] at h
    exact absurd h.symm (hne hw)
  · obtain ⟨rfl, rfl⟩ := scalar_append_inj hr hr' h
    exact ⟨rfl, rfl⟩

end Leaves

/-! ### Parts of a tree -/

/-- After the mark of an item, a tree can be told from what starts to the left of it. -/
def Hangs (a : Data) : Prop :=
  ∀ b, Writable b → ∀ column r r', LeftOf column r → LeftOf column r' →
    (hanging column a).toList ++ r = (hanging column b).toList ++ r' → a = b ∧ r = r'

/-- After a key or a tag, a tree can be told from what follows. -/
def Follows (a : Data) : Prop :=
  ∀ b, Writable b → ∀ list column, list ≤ column → column ≤ list + 2 →
    ∀ r r', Ends list column r → Ends list column r' →
      (following list column a).toList ++ r = (following list column b).toList ++ r' →
        a = b ∧ r = r'

section Parts

variable {list column : Nat} {r r' : List Char}

theorem items_append_inj {xs ys : List Data} (hxs : ∀ x ∈ xs, Hangs x) (hys : ∀ y ∈ ys, Writable y)
    (hr : Ends column (column + 2) r) (hr' : Ends column (column + 2) r')
    (h : lines column (item column) xs ++ r = lines column (item column) ys ++ r') :
    xs = ys ∧ r = r' := by
  refine (block_items column).lines_append_inj hr hr' (fun x hx y hy r r' hr hr' heq => ?_) h
  rw [toList_item_append, toList_item_append] at heq
  exact hxs x hx y (hys y hy) _ r r' hr hr' (List.cons.inj (List.cons.inj heq).2).2

theorem field_append_inj {f g : String × Data} (hhangs : Hangs f.2) (hfollows : Follows f.2)
    (hg : Writable g.2) (hr : Ends column (column + 2) r) (hr' : Ends column (column + 2) r')
    (h : (field column f).toList ++ r = (field column g).toList ++ r') : f = g ∧ r = r' := by
  -- A key with a mark is not written like one without.
  have hne {f g : String × Data} {r r' : List Char} (hf : isSimpleKey f.1)
      (hg : isSimpleKey g.1 = false) :
      (field column f).toList ++ r ≠ (field column g).toList ++ r' := by
    rw [toList_field_of_isSimpleKey hf, toList_field_of_not_isSimpleKey hg]
    exact written_append_ne_mark (Or.inl rfl) column f.1 _ _
  cases hkey : isSimpleKey f.1 <;> cases hkey' : isSimpleKey g.1
  · rw [toList_field_of_not_isSimpleKey hkey, toList_field_of_not_isSimpleKey hkey'] at h
    have hcolon (tail : List Char) : LeftOf (column + 2) (spaces column ++ ':' :: tail) :=
      leftOf_line column (by decide) (by decide) tail
    obtain ⟨hname, hvalue⟩ := scalar_append_inj (hcolon _) (hcolon _)
      (List.cons.inj (List.cons.inj h).2).2
    simp only [List.append_cancel_left_eq, List.cons.injEq, true_and] at hvalue
    obtain ⟨hdata, rfl⟩ := hhangs g.2 hg _ r r' hr.leftOf hr'.leftOf hvalue
    exact ⟨Prod.ext hname hdata, rfl⟩
  · exact absurd h.symm (hne hkey' hkey)
  · exact absurd h (hne hkey hkey')
  · rw [toList_field_of_isSimpleKey hkey, toList_field_of_isSimpleKey hkey'] at h
    obtain ⟨b, tail, hfollowing, hb⟩ :=
      exists_toList_following_append_eq column (column + 2) f.2 r
    obtain ⟨b', tail', hfollowing', hb'⟩ :=
      exists_toList_following_append_eq column (column + 2) g.2 r'
    rw [hfollowing, hfollowing'] at h
    obtain ⟨hname, hvalue⟩ := key_append_inj (style_ne_literal_of_isSimpleKey hkey) hb hb' h
    rw [← hfollowing, ← hfollowing'] at hvalue
    obtain ⟨hdata, rfl⟩ := hfollows g.2 hg column (column + 2) (by omega) (by omega) r r' hr hr'
      hvalue
    exact ⟨Prod.ext hname hdata, rfl⟩

theorem fields_append_inj {fs gs : List (String × Data)} (hfs : ∀ f ∈ fs, Hangs f.2 ∧ Follows f.2)
    (hgs : ∀ g ∈ gs, Writable g.2) (hr : LeftOf column r) (hr' : LeftOf column r')
    (h : lines column (field column) fs ++ r = lines column (field column) gs ++ r') :
    fs = gs ∧ r = r' := by
  refine (block_fields column).lines_append_inj hr hr' (fun f hf g hg r r' hr hr' heq => ?_) h
  exact field_append_inj (hfs f hf).1 (hfs f hf).2 (hgs g hg) hr hr' heq

theorem tag_append_inj {name name' : String} {a b : Data}
    (hname : ∀ c ∈ name.toList, isBlankOrBreak c = false)
    (hname' : ∀ c ∈ name'.toList, isBlankOrBreak c = false) (ha : Follows a) (hb : Writable b)
    (hle : list ≤ column) (hle' : column ≤ list + 2)
    (hr : Ends list column r) (hr' : Ends list column r')
    (h : name.toList ++ ((following list column a).toList ++ r)
      = name'.toList ++ ((following list column b).toList ++ r')) :
    Data.variant name a = .variant name' b ∧ r = r' := by
  have hend (d : Data) (r : List Char) :
      ∀ c ∈ ((following list column d).toList ++ r).head?, (!isBlankOrBreak c) = false := by
    obtain ⟨b, tail, hfollowing, hb⟩ := exists_toList_following_append_eq list column d r
    simp [hfollowing, hb]
  obtain ⟨hlist, hrest⟩ := Text.append_inj_of_all (p := fun c => !isBlankOrBreak c)
    (fun c hc => by simp [hname c hc]) (fun c hc => by simp [hname' c hc]) (hend a r) (hend b r') h
  obtain ⟨rfl, rfl⟩ := ha b hb list column hle hle' r r' hr hr' hrest
  rw [String.toList_injective hlist]
  exact ⟨rfl, rfl⟩

end Parts

/-! ### All trees -/

/-- A leaf or a tree without entries. -/
theorem hangs_and_follows_of_inline {a : Data} (ha : Writable a)
    (hblock : (Form.ofData a).isBlock = false) (htag : Form.ofData a ≠ .tag) :
    Hangs a ∧ Follows a := by
  have hhangs : Hangs a := by
    intro b hb column r r' hr hr' h
    have hform := form_eq_of_hanging ha hb h
    cases hfa : Form.ofData a with
    | leaf => exact leaf_append_inj ha hfa hb (hform.symm.trans hfa) hr hr' h
    | noItems =>
      obtain rfl := Form.eq_list_nil hfa
      obtain rfl := Form.eq_list_nil (hform.symm.trans hfa)
      exact ⟨rfl, List.append_cancel_left h⟩
    | noFields =>
      obtain rfl := Form.eq_record_nil hfa
      obtain rfl := Form.eq_record_nil (hform.symm.trans hfa)
      exact ⟨rfl, List.append_cancel_left h⟩
    | tag => exact absurd hfa htag
    | _ => rw [hfa] at hblock; cases hblock
  refine ⟨hhangs, fun b hb list column hle _ r r' hr hr' h => ?_⟩
  have hform := form_eq_of_following ha hb hle h
  rw [toList_following_of_inline hblock htag,
    toList_following_of_inline (hform ▸ hblock) (hform ▸ htag)] at h
  exact hhangs b hb column r r' hr.leftOf hr'.leftOf (List.cons.inj h).2

theorem hangs_and_follows_list {xs : List Data} (hne : xs ≠ []) (ha : Writable (.list xs))
    (ih : ∀ x ∈ xs, Hangs x ∧ Follows x) : Hangs (.list xs) ∧ Follows (.list xs) := by
  have hform : Form.ofData (.list xs) = .items := by
    cases xs with
    | nil => exact absurd rfl hne
    | cons => rfl
  constructor
  · intro b hb column r r' hr hr' h
    obtain ⟨y, ys, rfl⟩ := Form.exists_items ((form_eq_of_hanging ha hb h).symm.trans hform)
    have hlines := congrArg (spaces column ++ ·) h
    simp only [← List.append_assoc, spaces_append_hanging_list column hne,
      spaces_append_hanging_list column (List.cons_ne_nil y ys)] at hlines
    cases hb with
    | list hys =>
      obtain ⟨rfl, rfl⟩ := items_append_inj (fun x hx => (ih x hx).1) hys (hr.ends (by omega))
        (hr'.ends (by omega)) hlines
      exact ⟨rfl, rfl⟩
  · intro b hb list column hle hle' r r' hr hr' h
    obtain ⟨y, ys, rfl⟩ := Form.exists_items ((form_eq_of_following ha hb hle h).symm.trans hform)
    rw [toList_following_list list column hne,
      toList_following_list list column (List.cons_ne_nil y ys)] at h
    cases hb with
    | list hys =>
      obtain ⟨rfl, rfl⟩ := items_append_inj (fun x hx => (ih x hx).1) hys (hr.mono hle')
        (hr'.mono hle') (List.cons.inj h).2
      exact ⟨rfl, rfl⟩

theorem hangs_and_follows_record {fs : List (String × Data)} (hne : fs ≠ [])
    (ha : Writable (.record fs)) (ih : ∀ f ∈ fs, Hangs f.2 ∧ Follows f.2) :
    Hangs (.record fs) ∧ Follows (.record fs) := by
  have hform : Form.ofData (.record fs) = .fields := by
    cases fs with
    | nil => exact absurd rfl hne
    | cons => rfl
  constructor
  · intro b hb column r r' hr hr' h
    obtain ⟨g, gs, rfl⟩ := Form.exists_fields ((form_eq_of_hanging ha hb h).symm.trans hform)
    have hlines := congrArg (spaces column ++ ·) h
    simp only [← List.append_assoc, spaces_append_hanging_record column hne,
      spaces_append_hanging_record column (List.cons_ne_nil g gs)] at hlines
    cases hb with
    | record hgs =>
      obtain ⟨rfl, rfl⟩ := fields_append_inj ih hgs hr hr' hlines
      exact ⟨rfl, rfl⟩
  · intro b hb list column hle _ r r' hr hr' h
    obtain ⟨g, gs, rfl⟩ := Form.exists_fields ((form_eq_of_following ha hb hle h).symm.trans hform)
    rw [toList_following_record list column hne,
      toList_following_record list column (List.cons_ne_nil g gs)] at h
    cases hb with
    | record hgs =>
      obtain ⟨rfl, rfl⟩ := fields_append_inj ih hgs hr.leftOf hr'.leftOf (List.cons.inj h).2
      exact ⟨rfl, rfl⟩

theorem hangs_and_follows_variant {name : String} {payload : Data}
    (hname : ∀ c ∈ name.toList, isBlankOrBreak c = false) (hpayload : Writable payload)
    (ih : Follows payload) : Hangs (.variant name payload) ∧ Follows (.variant name payload) := by
  have ha : Writable (.variant name payload) := .variant hname hpayload
  constructor
  · intro b hb column r r' hr hr' h
    obtain ⟨name', payload', rfl⟩ := Form.exists_tag (form_eq_of_hanging ha hb h).symm
    simp only [hanging, String.toList_append, List.append_assoc, List.append_cancel_left_eq] at h
    cases hb with
    | variant hname' hpayload' =>
      exact tag_append_inj hname hname' ih hpayload' (by omega) (by omega) (hr.ends (by omega))
        (hr'.ends (by omega)) h
  · intro b hb list column hle hle' r r' hr hr' h
    obtain ⟨name', payload', rfl⟩ := Form.exists_tag (form_eq_of_following ha hb hle h).symm
    rw [toList_following_variant, toList_following_variant] at h
    cases hb with
    | variant hname' hpayload' =>
      exact tag_append_inj hname hname' ih hpayload' hle hle' hr hr' (by simpa using h)

/-- A tree in front of what can follow it: both can be told. -/
theorem hangs_and_follows {a : Data} (ha : Writable a) : Hangs a ∧ Follows a := by
  induction ha with
  | bool b => exact hangs_and_follows_of_inline (.bool b) rfl (by simp [Form.ofData])
  | int h => exact hangs_and_follows_of_inline (.int h) rfl (by simp [Form.ofData])
  | text s => exact hangs_and_follows_of_inline (.text s) rfl (by simp [Form.ofData])
  | @list items h ih =>
    by_cases hne : items = []
    · subst hne
      exact hangs_and_follows_of_inline (.list h) rfl (by simp [Form.ofData])
    · exact hangs_and_follows_list hne (.list h) ih
  | @record fields h ih =>
    by_cases hne : fields = []
    · subst hne
      exact hangs_and_follows_of_inline (.record h) rfl (by simp [Form.ofData])
    · exact hangs_and_follows_record hne (.record h) ih
  | variant hname h ih => exact hangs_and_follows_variant hname h ih.2

/-- A document is that of one tree. -/
theorem document_inj {a b : Data} (ha : Writable a) (hb : Writable b)
    (h : document a = document b) : a = b := by
  have hnil : LeftOf 0 [] := ⟨by simp [spaces], by simp⟩
  have hlist : (hanging 0 a).toList ++ [] = (hanging 0 b).toList ++ [] := by
    rw [List.append_nil, List.append_nil]
    exact congrArg String.toList h
  exact ((hangs_and_follows ha).1 b hb 0 [] [] hnil hnil hlist).1

end ProcessPlan.Yaml
