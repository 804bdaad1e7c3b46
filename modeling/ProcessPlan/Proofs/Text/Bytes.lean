import Mathlib.Data.List.Lex
import Mathlib.Data.String.Basic

/-!
# Bytes of texts

A text is written in one to four bytes a character, and the first byte of a character tells how many
there are, more of them with a greater first byte. So texts are ordered by their bytes as they are by
their characters, and one of ASCII characters alone has as many bytes as characters.

## Main definitions

* `Text.bytes`: the bytes of a text in UTF-8

## Main results

* `Text.bytes_lt_iff`: the order of texts is that of their bytes
* `Text.utf8ByteSize_of_ascii`: the bytes of a text of ASCII characters
-/

namespace ProcessPlan.Text

/-- The bytes of a text in UTF-8. -/
def bytes (s : String) : List UInt8 := s.toByteArray.data.toList

theorem bytes_eq_flatMap (s : String) : bytes s = s.toList.flatMap String.utf8EncodeChar := by
  rw [bytes, ← String.utf8Encode_toList, List.utf8Encode, List.toList_data_toByteArray]

/-! ### Sizes -/

theorem length_bytes (s : String) : (bytes s).length = s.utf8ByteSize := rfl

/-- A text of ASCII characters has a byte for each. -/
theorem utf8ByteSize_of_ascii {s : String} (h : ∀ c ∈ s.toList, c.toNat < 128) :
    s.utf8ByteSize = s.toList.length := by
  have hsize : ∀ c ∈ s.toList, (String.utf8EncodeChar c).length = 1 := fun c hc => by
    have hval : c.val.toNat ≤ 127 := Nat.le_of_lt_succ (h c hc)
    rw [String.length_utf8EncodeChar, Char.utf8Size_eq_one_iff]
    exact UInt32.le_iff_toNat_le.mpr hval
  rw [← length_bytes, bytes_eq_flatMap, List.length_flatMap, List.map_congr_left hsize]
  simp

/-! ### Order -/

/-- Numbers compare as their digits to base 64, of which the last one comes last. -/
theorem div_lt_or_mod_lt {m n : Nat} (h : m < n) :
    m / 64 < n / 64 ∨ m / 64 = n / 64 ∧ m % 64 < n % 64 := by omega

theorem val_toNat_lt (c : Char) : c.val.toNat < 0x110000 := by
  rcases c.valid with h | h
  · exact Nat.lt_trans h (by decide)
  · exact h.2

/-- Of two texts with different characters in front, the bytes of these characters decide. -/
theorem utf8EncodeChar_append_lt {c d : Char} (h : c < d) (xs ys : List UInt8) :
    String.utf8EncodeChar c ++ xs < String.utf8EncodeChar d ++ ys := by
  have hlt : c.val.toNat < d.val.toNat := h
  have hc := val_toNat_lt c
  have hd := val_toNat_lt d
  simp only [String.utf8EncodeChar]
  generalize c.val.toNat = m at *
  generalize d.val.toNat = n at *
  -- where both have equally many bytes, these are the digits to base 64 from the first to the last
  have hlast := div_lt_or_mod_lt hlt
  have hmiddle : m / 64 < n / 64 → _ := div_lt_or_mod_lt
  have hfirst : m / 64 / 64 < n / 64 / 64 → _ := div_lt_or_mod_lt
  simp only [Nat.div_div_eq_div_mul, Nat.reduceMul] at hmiddle hfirst
  split_ifs <;>
    simp (disch := omega) only [List.cons_append, List.nil_append, List.cons_lt_cons_iff,
      UInt8.lt_iff_toNat_lt, ← UInt8.toNat_inj, UInt8.toNat_ofNat', Nat.reducePow,
      Nat.mod_eq_of_lt, Nat.add_lt_add_iff_right, Nat.add_right_cancel_iff] <;>
    omega

theorem flatMap_utf8EncodeChar_lt {cs ds : List Char} (h : cs < ds) :
    cs.flatMap String.utf8EncodeChar < ds.flatMap String.utf8EncodeChar := by
  induction h with
  | @nil d ds =>
    obtain ⟨b, bs, hb⟩ := List.exists_cons_of_ne_nil (@String.utf8EncodeChar_ne_nil d)
    rw [List.flatMap_nil, List.flatMap_cons, hb]
    exact List.nil_lt_cons _ _
  | rel h =>
    rw [List.flatMap_cons, List.flatMap_cons]
    exact utf8EncodeChar_append_lt h _ _
  | cons _ ih =>
    rw [List.flatMap_cons, List.flatMap_cons]
    exact List.append_left_lt ih

/-- Texts are ordered as their bytes are. -/
theorem bytes_lt_iff {s t : String} : bytes s < bytes t ↔ s < t := by
  have hmono {s t : String} (h : s < t) : bytes s < bytes t := by
    rw [bytes_eq_flatMap, bytes_eq_flatMap]
    exact flatMap_utf8EncodeChar_lt h
  refine ⟨fun h => ?_, hmono⟩
  rcases lt_trichotomy s t with hlt | rfl | hgt
  · exact hlt
  · exact absurd h (List.lt_irrefl _)
  · exact absurd h (List.lt_asymm (hmono hgt))

end ProcessPlan.Text
