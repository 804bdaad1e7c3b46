import ProcessPlan.Proofs.WellFormed

/-!
# The documented grammar of items

Keys and values are documented in bytes: a name has 1 to 63 of them, the domain in front of one 1 to
253, and a domain is a list of parts with points between them. Here the grammar is put in these
words, without the functions that take a key apart, and an item has no fault exactly if all of its
entries keep it. The entries of an item stand in the order of the bytes of their keys, so the fault
that is reported is that of the least key at fault.

## Main definitions

* `Metadata.NameForm`, `Metadata.PartForm`, `Metadata.DomainForm`, `Metadata.KeyForm`,
  `Metadata.EntryForm`: the grammar
* `Metadata.ReportsFirst`: a fault is that of the first entry that does not keep it

## Main results

* `Metadata.nameForm_iff`, `Metadata.domainForm_iff`, `Metadata.keyForm_iff`: the rules are the
  documented ones
* `MetadataItem.fault?_documented`: what is accepted, and what is reported
-/

namespace ProcessPlan

namespace Metadata

variable {kind : MetadataKind} {entry : String × String} {fault : ItemFault} {s key : String}

/-! ### The grammar -/

/-- A name: 1 to 63 bytes, letters, digits, `-`, `_` and `.`, with a letter or digit at both ends. -/
structure NameForm (s : String) : Prop where
  bytes : 1 ≤ s.utf8ByteSize ∧ s.utf8ByteSize ≤ 63
  chars : ∀ c ∈ s.toList, ('A' ≤ c ∧ c ≤ 'Z') ∨ ('a' ≤ c ∧ c ≤ 'z') ∨ ('0' ≤ c ∧ c ≤ '9') ∨
    c = '-' ∨ c = '_' ∨ c = '.'
  ends : ∀ c, s.toList.head? = some c ∨ s.toList.getLast? = some c →
    ('A' ≤ c ∧ c ≤ 'Z') ∨ ('a' ≤ c ∧ c ≤ 'z') ∨ ('0' ≤ c ∧ c ≤ '9')

/-- A part of a domain: small letters, digits and `-`, with a small letter or digit at both ends. -/
structure PartForm (s : String) : Prop where
  nonempty : s ≠ ""
  chars : ∀ c ∈ s.toList, ('a' ≤ c ∧ c ≤ 'z') ∨ ('0' ≤ c ∧ c ≤ '9') ∨ c = '-'
  ends : ∀ c, s.toList.head? = some c ∨ s.toList.getLast? = some c →
    ('a' ≤ c ∧ c ≤ 'z') ∨ ('0' ≤ c ∧ c ≤ '9')

/-- A domain: 1 to 253 bytes, parts with points between them. -/
structure DomainForm (s : String) : Prop where
  bytes : 1 ≤ s.utf8ByteSize ∧ s.utf8ByteSize ≤ 253
  parts : ∃ parts : List String, parts ≠ [] ∧ s = Text.join "." parts ∧
    ∀ part ∈ parts, PartForm part

/-- A key: a name, or a domain, a slash and a name. -/
inductive KeyForm : String → Prop where
  | bare {name : String} (hname : NameForm name) : KeyForm name
  | qualified {domain name : String} (hdomain : DomainForm domain) (hname : NameForm name) :
      KeyForm (domain ++ "/" ++ name)

/-- An entry of a kind: its key is one, and its value is empty or a name if it is a label. -/
structure EntryForm (kind : MetadataKind) (entry : String × String) : Prop where
  key : KeyForm entry.1
  value : kind = .labels → entry.2 = "" ∨ NameForm entry.2

/-! ### The rules are the documented ones -/

theorem one_le_utf8ByteSize_iff : 1 ≤ s.utf8ByteSize ↔ s.toList ≠ [] := by
  rw [Nat.one_le_iff_ne_zero, Ne, Ne, String.utf8ByteSize_eq_zero_iff, String.toList_eq_nil_iff]

theorem nameForm_iff : NameForm s ↔ IsName s.toList := by
  have hframed : Framed isNameChar isAlnum s.toList ↔ s.toList ≠ [] ∧ _ ∧ _ := framed_iff_forall
  simp only [isNameChar_iff, isAlnum_iff] at hframed
  constructor
  · rintro ⟨hbytes, hchars, hends⟩
    have hname := hframed.mpr ⟨one_le_utf8ByteSize_iff.mp hbytes.1, hchars, hends⟩
    exact ⟨utf8ByteSize_of_isNameChar hname.forall_mem ▸ hbytes.2, hname⟩
  · rintro ⟨hlength, hname⟩
    obtain ⟨hne, hchars, hends⟩ := hframed.mp hname
    exact ⟨⟨one_le_utf8ByteSize_iff.mpr hne,
      (utf8ByteSize_of_isNameChar hname.forall_mem).symm ▸ hlength⟩, hchars, hends⟩

theorem partForm_iff : PartForm s ↔ Framed isDomainChar isLowerAlnum s.toList := by
  rw [framed_iff_forall]
  simp only [isDomainChar_iff, isLowerAlnum_iff, Ne, String.toList_eq_nil_iff]
  exact ⟨fun h => ⟨h.nonempty, h.chars, h.ends⟩, fun ⟨hne, hchars, hends⟩ => ⟨hne, hchars, hends⟩⟩

/-- The parts that a domain is joined from are those it is taken apart into. -/
theorem exists_parts_iff : (∃ parts : List String, parts ≠ [] ∧ s = Text.join "." parts ∧
      ∀ part ∈ parts, PartForm part) ↔
    ∀ part ∈ Text.pieces '.' s.toList, Framed isDomainChar isLowerAlnum part := by
  have hmark : ".".toList = ['.'] := rfl
  simp only [partForm_iff]
  constructor
  · rintro ⟨parts, hne, rfl, hparts⟩
    rw [Text.pieces_join hmark hne fun part hpart => (hparts part hpart).not_mem_point]
    simpa using hparts
  · intro h
    refine ⟨(Text.pieces '.' s.toList).map String.ofList, by simp, (Text.join_pieces hmark s).symm,
      ?_⟩
    simpa using h

theorem domainForm_iff : DomainForm s ↔ IsDomain s.toList := by
  constructor
  · rintro ⟨hbytes, hparts⟩
    have h := exists_parts_iff.mp hparts
    exact ⟨utf8ByteSize_of_isNameChar (isNameChar_of_mem_domain h) ▸ hbytes.2, h⟩
  · rintro ⟨hlength, h⟩
    have hsize := utf8ByteSize_of_isNameChar (isNameChar_of_mem_domain h)
    have hne : s.toList ≠ [] := by
      intro hnil
      rw [hnil] at h
      exact (h [] (by simp [Text.pieces])).ne_nil rfl
    exact ⟨⟨one_le_utf8ByteSize_iff.mpr hne, hsize.symm ▸ hlength⟩, exists_parts_iff.mpr h⟩

theorem not_mem_slash {cs : List Char} (h : ∀ c ∈ cs, isNameChar c = true) : '/' ∉ cs :=
  fun hmem => absurd (h '/' hmem) (by decide)

/-- Neither a domain nor a name has a slash inside, so the one of a key can be told. -/
theorem keyForm_iff : KeyForm key ↔ IsKey key := by
  constructor
  · rintro (hname | ⟨hdomain, hname⟩)
    · have hcut : Text.cutChars '/' key.toList = none :=
        Text.cutChars_eq_none_iff.mpr (not_mem_slash (nameForm_iff.mp hname).2.forall_mem)
      rw [IsKey, hcut]
      exact nameForm_iff.mp hname
    · next domain name =>
      have hdomain := domainForm_iff.mp hdomain
      have hcut : Text.cutChars '/' (domain ++ "/" ++ name).toList
          = some (domain.toList, name.toList) :=
        Text.cutChars_eq_some_iff.mpr
          ⟨by simp, not_mem_slash (isNameChar_of_mem_domain hdomain.2)⟩
      rw [IsKey, hcut]
      exact ⟨hdomain, nameForm_iff.mp hname⟩
  · intro h
    rw [IsKey] at h
    cases hcut : Text.cutChars '/' key.toList with
    | none =>
      rw [hcut] at h
      exact .bare (nameForm_iff.mpr h)
    | some parts =>
      obtain ⟨domain, name⟩ := parts
      rw [hcut] at h
      have hkey : key = String.ofList domain ++ "/" ++ String.ofList name :=
        String.toList_inj.mp (by simp [(Text.cutChars_eq_some_iff.mp hcut).1])
      rw [hkey]
      exact .qualified (domainForm_iff.mpr (by simpa using h.1))
        (nameForm_iff.mpr (by simpa using h.2))

theorem entryForm_iff :
    EntryForm kind entry ↔ IsKey entry.1 ∧ (kind = .labels → IsLabelValue entry.2) := by
  rw [← keyForm_iff]
  simp only [IsLabelValue, ← nameForm_iff]
  exact ⟨fun h => ⟨h.key, h.value⟩, fun h => ⟨h.1, h.2⟩⟩

theorem entryFault?_eq_none_iff_entryForm :
    entryFault? kind entry = none ↔ EntryForm kind entry :=
  entryFault?_eq_none_iff.trans entryForm_iff.symm

/-! ### What is reported -/

theorem eq_of_keyFault? (h : keyFault? key = some fault) :
    fault = .badDomain key ∨ fault = .badName key := by
  rw [keyFault?] at h
  split at h
  · split at h
    · exact Or.inl (Option.some.inj h).symm
    · exact Or.inr (Option.some.inj (Option.ite_none_right_eq_some.mp h).2).symm
  · exact Or.inr (Option.some.inj (Option.ite_none_right_eq_some.mp h).2).symm

/-- The fault of an entry is that of its key, or else of its value. -/
theorem entryFault?_cases (h : entryFault? kind entry = some fault) :
    (¬ KeyForm entry.1 ∧ (fault = .badDomain entry.1 ∨ fault = .badName entry.1)) ∨
      KeyForm entry.1 ∧ fault = .badLabelValue entry.1 entry.2 := by
  rw [keyForm_iff, ← keyFault?_eq_none_iff]
  rw [entryFault?] at h
  cases hkey : keyFault? entry.1 with
  | some keyFault =>
    rw [hkey, Option.some_or] at h
    obtain rfl := Option.some.inj h
    exact Or.inl ⟨by simp, eq_of_keyFault? hkey⟩
  | none =>
    rw [hkey, Option.none_or] at h
    exact Or.inr ⟨rfl, (Option.some.inj (Option.ite_none_right_eq_some.mp h).2).symm⟩

/-- A fault names the least key, in the order of bytes, of an entry that does not keep the grammar,
and says that the key does not if that is so, or else that the value does not. -/
structure ReportsFirst (kind : MetadataKind) (entries : List (String × String))
    (fault : ItemFault) (entry : String × String) : Prop where
  mem : entry ∈ entries
  not_form : ¬ EntryForm kind entry
  first : ∀ other ∈ entries, ¬ EntryForm kind other →
    other = entry ∨ Text.bytes entry.1 < Text.bytes other.1
  key : fault.key? = some entry.1
  badKey : ¬ KeyForm entry.1 → fault = .badDomain entry.1 ∨ fault = .badName entry.1
  badValue : KeyForm entry.1 → fault = .badLabelValue entry.1 entry.2

theorem exists_reportsFirst {entries : List (String × String)}
    (hsorted : entries.Pairwise (fun a b => a.1 < b.1))
    (h : entries.findSome? (entryFault? kind) = some fault) :
    ∃ entry, ReportsFirst kind entries fault entry := by
  obtain ⟨before, entry, after, rfl, hentry, hbefore⟩ := List.findSome?_eq_some_iff.mp h
  have hcases := entryFault?_cases hentry
  refine ⟨entry, ⟨by simp, ?_, fun other hother hform => ?_, ?_, fun hkey => ?_, fun hkey => ?_⟩⟩
  · rw [← entryFault?_eq_none_iff_entryForm, hentry]
    simp
  · rcases List.mem_append.mp hother with hmem | hmem
    · exact absurd (entryFault?_eq_none_iff_entryForm.mp (hbefore other hmem)) hform
    · rcases List.mem_cons.mp hmem with rfl | hmem
      · exact Or.inl rfl
      · have hafter := (List.pairwise_cons.mp (List.pairwise_append.mp hsorted).2.1).1
        exact Or.inr (Text.bytes_lt_iff.mpr (hafter other hmem))
  · rcases hcases with ⟨-, rfl | rfl⟩ | ⟨-, rfl⟩ <;> rfl
  · exact (hcases.resolve_right fun h => hkey h.1).2
  · exact (hcases.resolve_left fun h => h.1 hkey).2

end Metadata

/-- **The grammar of items.** An item of a kind has no fault exactly if it has entries and all of
them keep the documented grammar. Without entries the fault names no key; with entries it is that of
the first of them that does not keep the grammar. -/
theorem MetadataItem.fault?_documented (item : MetadataItem) (kind : MetadataKind) :
    (item.fault? kind = none ↔ item.entries.entries ≠ [] ∧
      ∀ entry ∈ item.entries.entries, Metadata.EntryForm kind entry) ∧
    (item.entries.entries = [] → ∃ fault, item.fault? kind = some fault ∧ fault.key? = none) ∧
    ∀ fault, item.fault? kind = some fault → item.entries.entries ≠ [] →
      ∃ entry, Metadata.ReportsFirst kind item.entries.entries fault entry := by
  refine ⟨?_, fun hnil => ⟨.noEntries, ?_, rfl⟩, fun fault hfault hne => ?_⟩
  · rw [MetadataItem.fault?_eq_none_iff]
    simp only [Metadata.entryForm_iff]
    exact ⟨fun h => ⟨h.entries, fun entry hmem => ⟨h.keys entry hmem, (h.values · entry hmem)⟩⟩,
      fun ⟨hne, h⟩ => ⟨hne, fun entry hmem => (h entry hmem).1,
        fun hkind entry hmem => (h entry hmem).2 hkind⟩⟩
  · rw [MetadataItem.fault?, if_pos (by simp [Table.isEmpty, hnil])]
  · rw [MetadataItem.fault?, if_neg (by simp [Table.isEmpty, hne])] at hfault
    exact Metadata.exists_reportsFirst item.entries.sorted hfault

end ProcessPlan
