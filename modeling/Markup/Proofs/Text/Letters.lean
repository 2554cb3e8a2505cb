import Mathlib.Data.List.Basic

set_option autoImplicit false

/-!
# Letters

The ASCII letters as ranges of code points, and what lower case makes of them.
-/

namespace Markup.Text

theorem isUpper_iff {c : Char} : c.isUpper = true ↔ c.val ≥ 'A'.val ∧ c.val ≤ 'Z'.val :=
  decide_eq_true_iff

theorem isUpper_iff_toNat {c : Char} : c.isUpper = true ↔ 65 ≤ c.toNat ∧ c.toNat ≤ 90 := by
  rw [isUpper_iff, ge_iff_le, UInt32.le_iff_toNat_le, UInt32.le_iff_toNat_le]
  rfl

theorem isLower_iff_toNat {c : Char} : c.isLower = true ↔ 97 ≤ c.toNat ∧ c.toNat ≤ 122 := by
  change (decide ('a'.val ≤ c.val) && decide (c.val ≤ 'z'.val)) = true ↔ _
  rw [Bool.and_eq_true, decide_eq_true_iff, decide_eq_true_iff, UInt32.le_iff_toNat_le,
    UInt32.le_iff_toNat_le]
  rfl

theorem isAlpha_iff {c : Char} : c.isAlpha = true ↔ c.isUpper = true ∨ c.isLower = true :=
  Bool.or_eq_true_iff

theorem toNat_toLower {c : Char} (h : c.isUpper = true) : c.toLower.toNat = c.toNat + 32 := by
  have bounds := isUpper_iff_toNat.mp h
  unfold Char.toLower
  rw [dif_pos (isUpper_iff.mp h), ← Char.toNat_val, UInt32.toNat_add, Char.toNat_val]
  change (c.toNat + 32) % 2 ^ 32 = c.toNat + 32
  omega

theorem toLower_of_not_isUpper {c : Char} (h : ¬ c.isUpper = true) : c.toLower = c := by
  unfold Char.toLower
  rw [dif_neg (mt isUpper_iff.mpr h)]

theorem isLower_toLower {c : Char} (h : c.isAlpha = true) : c.toLower.isLower = true := by
  by_cases hu : c.isUpper = true
  · have bounds := isUpper_iff_toNat.mp hu
    rw [isLower_iff_toNat, toNat_toLower hu]
    omega
  · rw [toLower_of_not_isUpper hu]
    exact (isAlpha_iff.mp h).resolve_left hu

theorem toLower_of_isLower {c : Char} (h : c.isLower = true) : c.toLower = c := by
  apply toLower_of_not_isUpper
  rw [isUpper_iff_toNat]
  have bounds := isLower_iff_toNat.mp h
  omega

theorem toLower_of_isDigit {c : Char} (h : c.isDigit = true) : c.toLower = c := by
  apply toLower_of_not_isUpper
  rw [isUpper_iff_toNat]
  have bounds : 48 ≤ c.toNat ∧ c.toNat ≤ 57 := Char.isDigit_iff_toNat.mp h
  omega

end Markup.Text
