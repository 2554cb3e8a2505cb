import Mathlib.Algebra.Order.Field.Rat
import Mathlib.Order.Monotone.Basic
import Mathlib.Tactic.FieldSimp
import Mathlib.Tactic.Linarith
import Mathlib.Tactic.Ring
import Markup.Number.Shortest

set_option autoImplicit false

/-!
# Rounding to a double

A number rounds to the code of the nearest magnitude, to the even one if two are equally near. What
rounds to a code lies between the midpoints to its neighbours. No number rounds to two codes.
-/

namespace Markup

def Decimal.value (d : Decimal) : ℚ := d.coefficient * 10 ^ d.exponent

theorem Decimal.value_mul_pow (c n : ℕ) (k : ℤ) :
    Decimal.value ⟨c * 10 ^ n, k⟩ = c * 10 ^ (k + n) := by
  rw [Decimal.value, zpow_add₀ (by norm_num), zpow_natCast]
  push_cast
  ring

namespace Binary64

/-! ## Magnitudes -/

/-- How far a code's magnitude is from the next, in units. -/
def gap (code : ℕ) : ℕ := 2 ^ (code / fractionCount - 1)

theorem gap_pos (code : ℕ) : 0 < gap code := Nat.two_pow_pos _

theorem units_eq (code : ℕ) : units code = if code / fractionCount = 0 then code % fractionCount
    else (fractionCount + code % fractionCount) * gap code := rfl

theorem units_succ (code : ℕ) : units (code + 1) = units code + gap code := by
  have hlt : code % fractionCount < fractionCount := Nat.mod_lt _ (by decide)
  rw [units_eq, units_eq, gap, gap]
  generalize hq : code / fractionCount = exponent at *
  generalize hr : code % fractionCount = fraction at *
  -- The fraction goes up by one, or is full and the exponent goes up.
  rcases Nat.lt_or_ge (fraction + 1) fractionCount with hf | hf
  · have hq' : (code + 1) / fractionCount = exponent := by
      rw [fractionCount] at *
      omega
    have hr' : (code + 1) % fractionCount = fraction + 1 := by
      rw [fractionCount] at *
      omega
    rw [hq', hr']
    split
    next h => rw [h, Nat.zero_sub, pow_zero]
    next => ring
  · have hq' : (code + 1) / fractionCount = exponent + 1 := by
      rw [fractionCount] at *
      omega
    have hr' : (code + 1) % fractionCount = 0 := by
      rw [fractionCount] at *
      omega
    have hfull : fractionCount = fraction + 1 := by omega
    rw [hq', hr', if_neg (Nat.succ_ne_zero _), Nat.add_zero, Nat.add_sub_cancel, hfull]
    split
    next h => rw [h, Nat.zero_sub, pow_zero, Nat.mul_one]
    next h =>
      obtain ⟨e, rfl⟩ := Nat.exists_eq_succ_of_ne_zero h
      rw [Nat.succ_sub_one, pow_succ]
      ring

theorem units_strictMono : StrictMono units :=
  strictMono_nat_of_lt_succ fun code => by
    have := gap_pos code
    have := units_succ code
    omega

theorem units_zero : units 0 = 0 := rfl

theorem unitsPerOne_pos : 0 < unitsPerOne := by
  unfold unitsPerOne
  generalize 1074 = n
  exact Nat.two_pow_pos n

theorem cast_unitsPerOne_pos : (0 : ℚ) < unitsPerOne := Nat.cast_pos.mpr unitsPerOne_pos

def magnitude (code : ℕ) : ℚ := units code / unitsPerOne

theorem magnitude_strictMono : StrictMono magnitude := fun _ _ h =>
  div_lt_div_of_pos_right (Nat.cast_lt.mpr (units_strictMono h)) cast_unitsPerOne_pos

theorem magnitude_zero : magnitude 0 = 0 := by
  rw [magnitude, units_zero, Nat.cast_zero, zero_div]

theorem magnitude_nonneg (code : ℕ) : 0 ≤ magnitude code :=
  div_nonneg (Nat.cast_nonneg _) cast_unitsPerOne_pos.le

/-! ## Nearness -/

/-- Whether a number is nearer to the magnitude of a code than to another, or as near to an even
    code. -/
def Nearer (code other : ℕ) (v : ℚ) : Prop :=
  |v - magnitude code| < |v - magnitude other| ∨
    (code % 2 = 0 ∧ |v - magnitude code| = |v - magnitude other|)

/-- Whether a number is rounded to a code: to the nearest, and to the even one of two. -/
def RoundsTo (code : ℕ) (v : ℚ) : Prop := ∀ other ≠ code, Nearer code other v

section Distances

variable {v a b : ℚ} (h : a < b)
include h

theorem abs_sub_lt_abs_sub_iff : |v - a| < |v - b| ↔ v < (a + b) / 2 := by
  rcases abs_cases (v - a) with ⟨ha, _⟩ | ⟨ha, _⟩ <;>
    rcases abs_cases (v - b) with ⟨hb, _⟩ | ⟨hb, _⟩ <;>
    rw [ha, hb] <;> constructor <;> intro <;> linarith

theorem abs_sub_gt_abs_sub_iff : |v - b| < |v - a| ↔ (a + b) / 2 < v := by
  rcases abs_cases (v - a) with ⟨ha, _⟩ | ⟨ha, _⟩ <;>
    rcases abs_cases (v - b) with ⟨hb, _⟩ | ⟨hb, _⟩ <;>
    rw [ha, hb] <;> constructor <;> intro <;> linarith

theorem abs_sub_eq_abs_sub_iff : |v - a| = |v - b| ↔ v = (a + b) / 2 := by
  rw [← not_iff_not, ← Ne, ← Ne, ne_iff_lt_or_gt, ne_iff_lt_or_gt]
  exact or_congr (abs_sub_lt_abs_sub_iff h) (abs_sub_gt_abs_sub_iff h)

end Distances

def midpoint (a b : ℕ) : ℚ := (magnitude a + magnitude b) / 2

theorem midpoint_mono {a b c d : ℕ} (hac : a ≤ c) (hbd : b ≤ d) : midpoint a b ≤ midpoint c d := by
  have hm := magnitude_strictMono.monotone
  exact div_le_div_of_nonneg_right (add_le_add (hm hac) (hm hbd)) (by norm_num)

theorem midpoint_lt_magnitude {code : ℕ} (h : 0 < code) :
    midpoint (code - 1) code < magnitude code := by
  have := magnitude_strictMono (Nat.sub_lt h one_pos)
  rw [midpoint]
  linarith

theorem magnitude_lt_midpoint (code : ℕ) : magnitude code < midpoint code (code + 1) := by
  have := magnitude_strictMono code.lt_succ_self
  rw [midpoint]
  linarith

theorem nearer_greater_iff {code other : ℕ} {v : ℚ} (h : code < other) : Nearer code other v ↔
    v < midpoint code other ∨ (code % 2 = 0 ∧ v = midpoint code other) := by
  have hm := magnitude_strictMono h
  rw [Nearer, abs_sub_lt_abs_sub_iff hm, abs_sub_eq_abs_sub_iff hm, midpoint]

theorem nearer_less_iff {code other : ℕ} {v : ℚ} (h : other < code) : Nearer code other v ↔
    midpoint other code < v ∨ (code % 2 = 0 ∧ v = midpoint other code) := by
  have hm := magnitude_strictMono h
  rw [Nearer, abs_sub_gt_abs_sub_iff hm, eq_comm (a := |v - magnitude code|),
    abs_sub_eq_abs_sub_iff hm, midpoint]

/-- Whether a number lies between the midpoints to the neighbours of a code, or on one of them if
    the code is even. -/
structure Between (code : ℕ) (v : ℚ) : Prop where
  lower : midpoint (code - 1) code < v ∨ (code % 2 = 0 ∧ v = midpoint (code - 1) code)
  upper : v < midpoint code (code + 1) ∨ (code % 2 = 0 ∧ v = midpoint code (code + 1))

theorem between_iff {code : ℕ} {v : ℚ} : Between code v ↔
    (midpoint (code - 1) code < v ∨ (code % 2 = 0 ∧ v = midpoint (code - 1) code)) ∧
      (v < midpoint code (code + 1) ∨ (code % 2 = 0 ∧ v = midpoint code (code + 1))) :=
  ⟨fun h => ⟨h.lower, h.upper⟩, fun h => ⟨h.1, h.2⟩⟩

theorem RoundsTo.between {code : ℕ} {v : ℚ} (h : RoundsTo code v) (hv : 0 ≤ v) :
    Between code v := by
  refine ⟨?_, (nearer_greater_iff code.lt_succ_self).mp (h (code + 1) (by omega))⟩
  rcases Nat.eq_zero_or_pos code with rfl | hc
  · have hz : midpoint (0 - 1) 0 = 0 := by simp [midpoint, magnitude_zero]
    rw [hz]
    exact hv.lt_or_eq.imp_right fun h => ⟨rfl, h.symm⟩
  · exact (nearer_less_iff (by omega)).mp (h (code - 1) (by omega))

theorem Between.roundsTo {code : ℕ} {v : ℚ} (h : Between code v) : RoundsTo code v := by
  intro other hne
  -- The midpoint to a neighbour is at least as near as that to any other code.
  rcases Nat.lt_or_gt_of_ne hne with hlt | hgt
  · rw [nearer_less_iff hlt]
    have hm : midpoint other code ≤ midpoint (code - 1) code :=
      midpoint_mono (Nat.le_sub_one_of_lt hlt) le_rfl
    rcases h.lower with hl | ⟨he, rfl⟩
    · exact .inl (hm.trans_lt hl)
    · exact hm.lt_or_eq.imp_right fun h => ⟨he, h.symm⟩
  · rw [nearer_greater_iff hgt]
    have hm : midpoint code (code + 1) ≤ midpoint code other :=
      midpoint_mono le_rfl (Nat.succ_le_of_lt hgt)
    rcases h.upper with hu | ⟨he, rfl⟩
    · exact .inl (hu.trans_le hm)
    · exact hm.lt_or_eq.imp_right fun h => ⟨he, h⟩

theorem RoundsTo.not_lt {a b : ℕ} {v : ℚ} (ha : RoundsTo a v) (hb : RoundsTo b v) : ¬a < b := by
  intro h
  have hab := (nearer_greater_iff h).mp (ha b h.ne')
  have hba := (nearer_less_iff h).mp (hb a h.ne)
  -- Only in the middle of two even codes could both be nearest, but an odd one is in between.
  obtain ⟨heven, hv⟩ : a % 2 = 0 ∧ v = midpoint a b := by
    rcases hab with hab | hab
    · rcases hba with hba | ⟨-, rfl⟩
      · exact absurd hab hba.not_gt
      · exact absurd hab (lt_irrefl _)
    · exact hab
  have hbeven : b % 2 = 0 := by
    rcases hba with hba | ⟨hb, -⟩
    · exact absurd hv hba.ne'
    · exact hb
  have hnext : v ≤ midpoint a (a + 1) :=
    ((nearer_greater_iff a.lt_succ_self).mp (ha (a + 1) (by omega))).elim le_of_lt fun h => h.2.le
  have hm : magnitude (a + 1) < magnitude b := magnitude_strictMono (by omega)
  rw [hv, midpoint, midpoint] at hnext
  linarith

theorem RoundsTo.unique {a b : ℕ} {v : ℚ} (ha : RoundsTo a v) (hb : RoundsTo b v) : a = b :=
  Nat.le_antisymm (Nat.not_lt.mp (hb.not_lt ha)) (Nat.not_lt.mp (ha.not_lt hb))

theorem roundsTo_magnitude (code : ℕ) : RoundsTo code (magnitude code) := by
  intro other hne
  rw [Nearer, sub_self, abs_zero]
  exact .inl (abs_pos.mpr (sub_ne_zero.mpr (magnitude_strictMono.injective.ne hne.symm)))

theorem Between.convex {code : ℕ} {u v w : ℚ} (hu : Between code u) (hw : Between code w)
    (huv : u ≤ v) (hvw : v ≤ w) : Between code v := by
  constructor
  · rcases hu.lower with h | ⟨he, rfl⟩
    · exact .inl (h.trans_le huv)
    · exact huv.lt_or_eq.imp_right fun h => ⟨he, h.symm⟩
  · rcases hw.upper with h | ⟨he, rfl⟩
    · exact .inl (hvw.trans_lt h)
    · exact hvw.lt_or_eq.imp_right fun h => ⟨he, h⟩

/-! ## The integer test -/

def scale (d : Decimal) : ℕ := Nat.pow 10 (-d.exponent).toNat

/-- Twice a decimal in units, times its scale. -/
def doubled (d : Decimal) : ℕ :=
  2 * d.coefficient * Nat.pow 10 d.exponent.toNat * unitsPerOne

theorem zpow_ten_eq (k : ℤ) :
    (10 : ℚ) ^ k * (Nat.pow 10 (-k).toNat : ℕ) = (Nat.pow 10 k.toNat : ℕ) := by
  simp only [Nat.pow_eq, Nat.cast_pow, Nat.cast_ofNat]
  rw [← zpow_natCast, ← zpow_natCast, ← zpow_add₀ (by norm_num)]
  congr 1
  omega

section Comparisons

variable (a b : ℕ) (d : Decimal)

theorem scale_pos : 0 < scale d := Nat.pow_pos (by decide)

theorem value_mul_scale : d.value * (2 * unitsPerOne * scale d) = doubled d := by
  have h := zpow_ten_eq d.exponent
  rw [Decimal.value, scale, doubled]
  push_cast
  rw [← h]
  ring

theorem midpoint_mul_scale :
    midpoint a b * (2 * unitsPerOne * scale d) = ((units a + units b) * scale d : ℕ) := by
  have := cast_unitsPerOne_pos
  rw [midpoint, magnitude, magnitude]
  push_cast
  field_simp

theorem factor_pos : (0 : ℚ) < 2 * unitsPerOne * scale d :=
  mul_pos (mul_pos two_pos cast_unitsPerOne_pos) (Nat.cast_pos.mpr (scale_pos d))

theorem midpoint_lt_value_iff :
    midpoint a b < d.value ↔ (units a + units b) * scale d < doubled d := by
  rw [← mul_lt_mul_iff_of_pos_right (factor_pos d), midpoint_mul_scale, value_mul_scale,
    Nat.cast_lt]

theorem value_lt_midpoint_iff :
    d.value < midpoint a b ↔ doubled d < (units a + units b) * scale d := by
  rw [← mul_lt_mul_iff_of_pos_right (factor_pos d), midpoint_mul_scale, value_mul_scale,
    Nat.cast_lt]

theorem value_eq_midpoint_iff :
    d.value = midpoint a b ↔ doubled d = (units a + units b) * scale d := by
  rw [← mul_left_inj' (factor_pos d).ne', midpoint_mul_scale, value_mul_scale, Nat.cast_inj]

end Comparisons

theorem readsBack_eq (code : ℕ) (d : Decimal) : readsBack code d =
    if code % 2 = 0 then decide ((units (code - 1) + units code) * scale d ≤ doubled d) &&
      decide (doubled d ≤ (units code + units (code + 1)) * scale d)
    else decide ((units (code - 1) + units code) * scale d < doubled d) &&
      decide (doubled d < (units code + units (code + 1)) * scale d) := rfl

/-- The integer test is whether a decimal lies between the midpoints. -/
theorem readsBack_iff (code : ℕ) (d : Decimal) :
    readsBack code d = true ↔ Between code d.value := by
  rw [readsBack_eq, between_iff, midpoint_lt_value_iff, value_lt_midpoint_iff,
    value_eq_midpoint_iff, value_eq_midpoint_iff]
  split
  next h => simp only [Bool.and_eq_true, decide_eq_true_eq, h, true_and]; omega
  next h => simp [h]

end Binary64
end Markup
