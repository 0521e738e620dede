import Mathlib.Data.List.Basic
import Mathlib.Tactic.SplitIfs

/-!
# Texts in the order of their bytes

Texts are compared character by character.  That is the order of their UTF-8 forms byte by byte
(`bytes_le_iff`), because a greater character has a greater form whatever follows the two
(`utf8EncodeChar_append_lt`): either its first byte is greater, or the forms are of one length and
differ in the digits of the two characters.
-/

namespace NetLab.Text

/-- The bytes of a text. -/
def bytes (text : String) : List UInt8 := text.toByteArray.data.toList

theorem bytes_eq (text : String) : bytes text = text.toList.flatMap String.utf8EncodeChar := by
  rw [bytes, ← String.utf8Encode_toList, List.utf8Encode, List.data_toByteArray]

theorem length_bytes (text : String) : (bytes text).length = text.utf8ByteSize := by
  rw [bytes, Array.length_toList]
  rfl

/-! ## Characters -/

/-- Greater numbers have greater forms, whatever follows. -/
def Ascends (bound : Nat) (form : Nat → List UInt8) : Prop :=
  ∀ v w, v < w → w < bound → ∀ xs ys, form v ++ xs < form w ++ ys

/-- A first byte holds the highest digit over a base. -/
theorem ascends_first {base digits : Nat} (h : base + digits ≤ 256) :
    Ascends digits fun v => [UInt8.ofNat (v % digits + base)] := by
  intro v w hvw hw xs ys
  refine List.cons_lt_cons_iff.2 (Or.inl ?_)
  rw [Nat.mod_eq_of_lt hw, Nat.mod_eq_of_lt (Nat.lt_trans hvw hw), UInt8.lt_iff_toNat_lt,
    UInt8.toNat_ofNat', UInt8.toNat_ofNat']
  omega

/-- A byte behind holds one digit more, of six bits. -/
theorem Ascends.digit {bound : Nat} {form : Nat → List UInt8} (h : Ascends bound form) :
    Ascends (bound * 64) fun v => form (v / 64) ++ [UInt8.ofNat (v % 64 + 128)] := by
  intro v w hvw hw xs ys
  rw [List.append_assoc, List.append_assoc]
  by_cases hhigh : v / 64 = w / 64
  · rw [hhigh]
    refine List.append_left_lt (List.cons_lt_cons_iff.2 (Or.inl ?_))
    rw [UInt8.lt_iff_toNat_lt, UInt8.toNat_ofNat', UInt8.toNat_ofNat']
    omega
  · exact h _ _ (by omega) (by omega) _ _

/-- **A greater character has a greater form.** -/
theorem utf8EncodeChar_append_lt {c d : Char} (h : c < d) (xs ys : List UInt8) :
    String.utf8EncodeChar c ++ xs < String.utf8EncodeChar d ++ ys := by
  have hlt : c.val.toNat < d.val.toNat := h
  have hbound : d.val.toNat < 0x110000 := by
    rcases d.valid with hlow | hhigh
    · exact Nat.lt_trans hlow (by decide)
    · exact hhigh.2
  have htwo := (ascends_first (show 192 + 32 ≤ 256 by decide)).digit
  have hthree := (ascends_first (show 224 + 16 ≤ 256 by decide)).digit.digit
  have hfour := (ascends_first (show 240 + 8 ≤ 256 by decide)).digit.digit.digit
  simp only [Nat.div_div_eq_div_mul, Nat.reduceMul] at hthree hfour
  unfold String.utf8EncodeChar
  simp only
  generalize c.val.toNat = v at *
  generalize d.val.toNat = w at *
  -- The first bytes tell forms of different lengths apart, and forms of one byte as well.
  split_ifs
  any_goals
    refine List.cons_lt_cons_iff.2 (Or.inl ?_)
    simp only [UInt8.lt_iff_toNat_lt, UInt8.toNat_ofNat']
    omega
  · exact htwo v w hlt (by omega) xs ys
  · exact hthree v w hlt (by omega) xs ys
  · exact hfour v w hlt (by omega) xs ys

theorem utf8EncodeChar_ne_nil (c : Char) : String.utf8EncodeChar c ≠ [] := by
  unfold String.utf8EncodeChar
  simp only
  split_ifs <;> exact List.cons_ne_nil _ _

/-! ## Texts -/

theorem flatMap_utf8EncodeChar_lt {xs ys : List Char} (h : xs < ys) :
    xs.flatMap String.utf8EncodeChar < ys.flatMap String.utf8EncodeChar := by
  induction h with
  | @nil d ys =>
    rw [List.flatMap_nil, List.flatMap_cons]
    obtain ⟨byte, rest, hform⟩ := List.exists_cons_of_ne_nil (utf8EncodeChar_ne_nil d)
    rw [hform]
    exact List.nil_lt_cons _ _
  | rel hcd => exact utf8EncodeChar_append_lt hcd _ _
  | cons _ ih => exact List.append_left_lt ih

/-- **The order of texts is that of their bytes.** -/
theorem bytes_le_iff {s t : String} : bytes s ≤ bytes t ↔ s ≤ t := by
  have hstrict {s t : String} (h : s < t) : bytes s < bytes t := by
    rw [bytes_eq, bytes_eq]
    exact flatMap_utf8EncodeChar_lt (String.lt_iff.1 h)
  constructor
  · intro h
    rw [← String.not_lt]
    exact fun hlt => List.not_le.2 (hstrict hlt) h
  · intro h
    by_cases heq : s = t
    · exact heq ▸ List.le_refl _
    · refine List.le_of_lt (hstrict ?_)
      rw [← String.not_le]
      exact fun hle => heq (String.le_antisymm h hle)

theorem isLE_compare_iff {s t : String} : (compare s t).isLE = true ↔ bytes s ≤ bytes t := by
  rw [bytes_le_iff]
  exact isLE_compareOfLessAndEq String.le_antisymm String.not_le String.le_total

end NetLab.Text
