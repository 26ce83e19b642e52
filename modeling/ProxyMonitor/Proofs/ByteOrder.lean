import Mathlib.Data.String.Basic

/-! The order of texts is that of their bytes in UTF-8. -/

namespace ProxyMonitor.Text

def bytes (text : String) : List UInt8 := text.toUTF8.data.toList

theorem bytes_eq (text : String) : bytes text = text.toList.flatMap String.utf8EncodeChar := by
  conv_lhs => rw [bytes, ← String.ofList_toList (s := text)]
  simp [String.ofList, String.toUTF8, List.utf8Encode]

theorem ofNat_eq_iff {m n : Nat} (small : m < UInt8.size) (alsoSmall : n < UInt8.size) :
    UInt8.ofNat m = UInt8.ofNat n ↔ m = n := by
  rw [← UInt8.toNat_inj, UInt8.toNat_ofNat_of_lt' small, UInt8.toNat_ofNat_of_lt' alsoSmall]

/-- The digits of a code point to the base 64, the greatest code point having a short first one. -/
theorem code_digits {n : Nat} (small : n < 0x110000) :
    n / 64 / 64 = n / 4096 ∧ n / 4096 / 64 = n / 262144 ∧ n / 262144 % 8 = n / 262144 := by
  refine ⟨Nat.div_div_eq_div_mul n 64 64, Nat.div_div_eq_div_mul n 4096 64, ?_⟩
  omega

theorem encodeChar_lt {c d : Char} (less : c < d) (rest others : List UInt8) :
    String.utf8EncodeChar c ++ rest < String.utf8EncodeChar d ++ others := by
  have below : c.val.toNat < d.val.toNat := less
  have bound : d.val.toNat < 0x110000 := by
    rcases d.valid with low | ⟨-, high⟩
    · exact Nat.lt_trans low (by decide)
    · exact high
  have digits := code_digits (Nat.lt_trans below bound)
  have otherDigits := code_digits bound
  simp only [String.utf8EncodeChar]
  generalize c.val.toNat = v at below digits ⊢
  generalize d.val.toNat = w at below bound otherDigits ⊢
  -- Longer codes have greater first bytes; codes of one length are compared digit by digit.
  split_ifs <;>
    simp (disch := simp only [UInt8.size]; omega) only [List.cons_append, List.nil_append,
      List.cons_lt_cons_iff, UInt8.ofNat_lt_iff_lt, ofNat_eq_iff] <;>
    omega

theorem append_lt_append_iff {first second common : List UInt8} :
    common ++ first < common ++ second ↔ first < second := by
  induction common with
  | nil => rfl
  | cons byte rest ih => simp [ih]

theorem flatMap_encodeChar_lt {cs ds : List Char} (less : cs < ds) :
    cs.flatMap String.utf8EncodeChar < ds.flatMap String.utf8EncodeChar := by
  induction less with
  | @nil d rest =>
      have nonempty : String.utf8EncodeChar d ≠ [] := by
        rw [String.utf8EncodeChar]
        split_ifs <;> exact List.cons_ne_nil _ _
      obtain ⟨byte, bytes, code⟩ := List.exists_cons_of_ne_nil nonempty
      rw [List.flatMap_cons, List.flatMap_nil, code]
      exact List.nil_lt_cons _ _
  | rel less => exact encodeChar_lt less _ _
  | cons _ ih =>
      rw [List.flatMap_cons, List.flatMap_cons, append_lt_append_iff]
      exact ih

theorem bytes_lt_bytes {a b : String} (less : a < b) : bytes a < bytes b := by
  rw [bytes_eq, bytes_eq]
  exact flatMap_encodeChar_lt (String.lt_iff_toList_lt.mp less)

theorem bytes_le_bytes {a b : String} (h : a ≤ b) : bytes a ≤ bytes b := by
  rcases h.lt_or_eq with less | rfl
  · exact List.le_of_lt (bytes_lt_bytes less)
  · exact List.le_refl _

theorem bytes_lt_iff {a b : String} : bytes a < bytes b ↔ a < b := by
  refine ⟨fun less => ?_, bytes_lt_bytes⟩
  apply String.not_le.mp
  intro le
  exact List.not_lt.mpr (bytes_le_bytes le) less

end ProxyMonitor.Text
