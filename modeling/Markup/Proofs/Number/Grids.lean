import Mathlib.Algebra.Order.Field.Power
import Markup.Proofs.Number.Rounding

set_option autoImplicit false

/-!
# Grids

The multiples of a power of ten make a grid. The two points of it next to the magnitude of a code
decide whether any point rounds to the code, and sixteen digits behind the first one always does.
-/

namespace Markup.Binary64

variable {code : ℕ}

/-! ## The leading digit -/

theorem lt_ten_pow_length (n : ℕ) : n < 10 ^ (Nat.toDigits 10 n).length :=
  (Nat.length_toDigits_le_iff (by decide) Nat.length_toDigits_pos).mp le_rfl

theorem ten_pow_le {n : ℕ} (hn : 0 < n) : 10 ^ ((Nat.toDigits 10 n).length - 1) ≤ n := by
  rcases Nat.eq_zero_or_pos ((Nat.toDigits 10 n).length - 1) with h | h
  · rw [h, pow_zero]
    exact hn
  · by_contra hlt
    have := (Nat.length_toDigits_le_iff (by decide) h).mpr (not_le.mp hlt)
    omega

theorem quotient_digits {a b : ℕ} (hb : 0 < b) (h : b ≤ a) :
    10 ^ ((Nat.toDigits 10 (a / b)).length - 1) * b ≤ a ∧
      a < 10 ^ (Nat.toDigits 10 (a / b)).length * b :=
  ⟨(Nat.mul_le_mul_right b (ten_pow_le (Nat.div_pos h hb))).trans (Nat.div_mul_le_self a b),
    (Nat.div_lt_iff_lt_mul hb).mp (lt_ten_pow_length (a / b))⟩

theorem length_quotient_le {a b n : ℕ} (hn : 0 < n) (hb : 0 < b) (h : a < 10 ^ n * b) :
    (Nat.toDigits 10 (a / b)).length ≤ n :=
  (Nat.length_toDigits_le_iff (by decide) hn).mpr ((Nat.div_lt_iff_lt_mul hb).mpr h)

theorem units_pos (h : 0 < code) : 0 < units code := units_strictMono h

theorem leadingExponent_spec (h : 0 < code) : (10 : ℚ) ^ leadingExponent code ≤ magnitude code ∧
    magnitude code < 10 ^ (leadingExponent code + 1) := by
  have hu := units_pos h
  rw [magnitude, le_div_iff₀ cast_unitsPerOne_pos, div_lt_iff₀ cast_unitsPerOne_pos,
    leadingExponent]
  split
  next hle =>
    -- The leading digit is that of the whole part.
    obtain ⟨hlow, hhigh⟩ := quotient_digits unitsPerOne_pos hle
    have hlen := Nat.length_toDigits_pos (b := 10) (n := units code / unitsPerOne)
    generalize (Nat.toDigits 10 (units code / unitsPerOne)).length = digits at *
    have he : (digits : ℤ) - 1 = (digits - 1 : ℕ) := by omega
    rw [sub_add_cancel, he, zpow_natCast, zpow_natCast]
    exact ⟨by exact_mod_cast hlow, by exact_mod_cast hhigh⟩
  next hlt =>
    -- The zeros in front are counted by how often the double fits into one.
    obtain ⟨hlow, hhigh⟩ := quotient_digits hu (show units code ≤ unitsPerOne - 1 by omega)
    have hlen := Nat.length_toDigits_pos (b := 10) (n := (unitsPerOne - 1) / units code)
    generalize (Nat.toDigits 10 ((unitsPerOne - 1) / units code)).length = digits at *
    have he : -(digits : ℤ) + 1 = -(digits - 1 : ℕ) := by omega
    have hlow' : 10 ^ (digits - 1) * units code < unitsPerOne := by omega
    have hhigh' : unitsPerOne ≤ 10 ^ digits * units code := by omega
    rw [he, zpow_neg, zpow_neg, zpow_natCast, zpow_natCast, inv_mul_eq_div, inv_mul_eq_div,
      div_le_iff₀' (by positivity), lt_div_iff₀' (by positivity)]
    exact ⟨by exact_mod_cast hhigh', by exact_mod_cast hlow'⟩

/-! ## A grid -/

/-- A magnitude is to a power of ten as `dividend` to `divisor`. -/
def dividend (code : ℕ) (k : ℤ) : ℕ := units code * Nat.pow 10 (-k).toNat

def divisor (k : ℤ) : ℕ := unitsPerOne * Nat.pow 10 k.toNat

def below (code : ℕ) (k : ℤ) : Decimal := ⟨dividend code k / divisor k, k⟩

def above (code : ℕ) (k : ℤ) : Decimal := ⟨dividend code k / divisor k + 1, k⟩

theorem value_mono {c c' : ℕ} (h : c ≤ c') (k : ℤ) :
    Decimal.value ⟨c, k⟩ ≤ Decimal.value ⟨c', k⟩ :=
  mul_le_mul_of_nonneg_right (Nat.cast_le.mpr h) (by positivity)

section Grid

variable (code) (k : ℤ)

theorem divisor_pos : 0 < divisor k := Nat.mul_pos unitsPerOne_pos (Nat.pow_pos (by decide))

theorem cast_divisor_pos : (0 : ℚ) < divisor k := Nat.cast_pos.mpr (divisor_pos k)

theorem magnitude_mul_divisor : magnitude code * divisor k = dividend code k * 10 ^ k := by
  rw [magnitude, divisor, dividend, Nat.cast_mul, Nat.cast_mul, ← zpow_ten_eq k]
  have := cast_unitsPerOne_pos
  field_simp

theorem above_value : (above code k).value = (below code k).value + 10 ^ k := by
  rw [Decimal.value, Decimal.value, above, below]
  push_cast
  ring

theorem sub_below_mul_divisor : (magnitude code - (below code k).value) * divisor k =
    (dividend code k % divisor k : ℕ) * 10 ^ k := by
  have h : (dividend code k : ℚ) = divisor k * (dividend code k / divisor k : ℕ) +
      (dividend code k % divisor k : ℕ) := by
    exact_mod_cast (Nat.div_add_mod (dividend code k) (divisor k)).symm
  rw [sub_mul, magnitude_mul_divisor, h, Decimal.value, below]
  ring

theorem above_sub_mul_divisor : ((above code k).value - magnitude code) * divisor k =
    (divisor k - (dividend code k % divisor k : ℕ)) * 10 ^ k := by
  rw [above_value, sub_mul (divisor k : ℚ), ← sub_below_mul_divisor]
  ring

theorem below_le : (below code k).value ≤ magnitude code := by
  rw [← sub_nonneg]
  refine nonneg_of_mul_nonneg_left ?_ (cast_divisor_pos k)
  rw [sub_below_mul_divisor]
  positivity

theorem lt_above : magnitude code < (above code k).value := by
  have hr : ((dividend code k % divisor k : ℕ) : ℚ) < divisor k :=
    Nat.cast_lt.mpr (Nat.mod_lt _ (divisor_pos k))
  rw [← sub_pos]
  refine pos_of_mul_pos_left ?_ (cast_divisor_pos k).le
  rw [above_sub_mul_divisor]
  exact mul_pos (sub_pos.mpr hr) (by positivity)

theorem abs_sub_below : |magnitude code - (below code k).value| * divisor k =
    (dividend code k % divisor k : ℕ) * 10 ^ k := by
  rw [abs_of_nonneg (sub_nonneg.mpr (below_le code k)), sub_below_mul_divisor]

theorem abs_sub_above : |magnitude code - (above code k).value| * divisor k =
    (divisor k - (dividend code k % divisor k : ℕ)) * 10 ^ k := by
  rw [abs_sub_comm, abs_of_pos (sub_pos.mpr (lt_above code k)), above_sub_mul_divisor]

variable {code k}

theorem below_nearer (h : 2 * (dividend code k % divisor k) ≤ divisor k) :
    |magnitude code - (below code k).value| ≤ |magnitude code - (above code k).value| := by
  have hr : (2 * (dividend code k % divisor k : ℕ) : ℚ) ≤ divisor k := by exact_mod_cast h
  refine le_of_mul_le_mul_right ?_ (cast_divisor_pos k)
  rw [abs_sub_below, abs_sub_above]
  exact mul_le_mul_of_nonneg_right (by linarith) (by positivity)

theorem above_nearer (h : divisor k ≤ 2 * (dividend code k % divisor k)) :
    |magnitude code - (above code k).value| ≤ |magnitude code - (below code k).value| := by
  have hr : (divisor k : ℚ) ≤ 2 * (dividend code k % divisor k : ℕ) := by exact_mod_cast h
  refine le_of_mul_le_mul_right ?_ (cast_divisor_pos k)
  rw [abs_sub_below, abs_sub_above]
  exact mul_le_mul_of_nonneg_right (by linarith) (by positivity)

end Grid

/-- One of the two decimals next to a magnitude that rounds to it, and no farther than the other
    if that does too. -/
structure Chosen (code : ℕ) (k : ℤ) (d : Decimal) : Prop where
  adjacent : d = below code k ∨ d = above code k
  between : Between code d.value
  nearest : ∀ e, e = below code k ∨ e = above code k → Between code e.value →
    |magnitude code - d.value| ≤ |magnitude code - e.value|

theorem gridPoint?_eq (tie : Tie) (code : ℕ) (k : ℤ) : gridPoint? tie code k =
    if readsBack code (below code k) && readsBack code (above code k) then
      if 2 * (dividend code k % divisor k) < divisor k ∨ (2 * (dividend code k % divisor k) =
        divisor k ∧ tie = .even ∧ (below code k).coefficient % 2 = 0)
      then some (below code k) else some (above code k)
    else if readsBack code (below code k) then some (below code k)
    else if readsBack code (above code k) then some (above code k)
    else none := rfl

theorem chosen_of_gridPoint? {tie : Tie} {k : ℤ} {d : Decimal}
    (h : gridPoint? tie code k = some d) : Chosen code k d := by
  rw [gridPoint?_eq] at h
  split_ifs at h with hboth hrest hlow hhigh <;> obtain rfl := Option.some.inj h
  all_goals simp only [Bool.and_eq_true, readsBack_iff] at *
  · refine ⟨.inl rfl, hboth.1, ?_⟩
    rintro e (rfl | rfl) -
    · exact le_rfl
    · exact below_nearer (by omega)
  · refine ⟨.inr rfl, hboth.2, ?_⟩
    rintro e (rfl | rfl) -
    · exact above_nearer (by omega)
    · exact le_rfl
  · refine ⟨.inl rfl, hlow, ?_⟩
    rintro e (rfl | rfl) he
    · exact le_rfl
    · exact absurd ⟨hlow, he⟩ hboth
  · refine ⟨.inr rfl, hhigh, ?_⟩
    rintro e (rfl | rfl) he
    · exact absurd he hlow
    · exact le_rfl

theorem between_magnitude (code : ℕ) : Between code (magnitude code) :=
  (roundsTo_magnitude code).between (magnitude_nonneg code)

theorem exists_adjacent {c : ℕ} {k : ℤ} (h : Between code (Decimal.value ⟨c, k⟩)) :
    ∃ e, (e = below code k ∨ e = above code k) ∧ Between code e.value ∧
      |magnitude code - e.value| ≤ |magnitude code - Decimal.value ⟨c, k⟩| := by
  have hm := between_magnitude code
  have hbelow := below_le code k
  have habove := lt_above code k
  rcases Nat.lt_or_ge (dividend code k / divisor k) c with hc | hc
  · have hle : (above code k).value ≤ Decimal.value ⟨c, k⟩ := value_mono hc k
    refine ⟨above code k, .inr rfl, hm.convex h habove.le hle, ?_⟩
    rw [abs_of_neg (by linarith), abs_of_neg (by linarith)]
    linarith
  · have hle : Decimal.value ⟨c, k⟩ ≤ (below code k).value := value_mono hc k
    refine ⟨below code k, .inl rfl, h.convex hm hle hbelow, ?_⟩
    rw [abs_of_nonneg (by linarith), abs_of_nonneg (by linarith)]
    linarith

theorem Chosen.nearest_on_grid {k : ℤ} {d : Decimal} (h : Chosen code k d) {c : ℕ}
    (hc : Between code (Decimal.value ⟨c, k⟩)) :
    |magnitude code - d.value| ≤ |magnitude code - Decimal.value ⟨c, k⟩| := by
  obtain ⟨e, he, hb, hle⟩ := exists_adjacent hc
  exact (h.nearest e he hb).trans hle

theorem not_between_of_gridPoint? {tie : Tie} {k : ℤ} (h : gridPoint? tie code k = none) (c : ℕ) :
    ¬Between code (Decimal.value ⟨c, k⟩) := by
  rw [gridPoint?_eq] at h
  split_ifs at h with _ _ hlow hhigh
  rw [readsBack_iff] at hlow hhigh
  intro hc
  obtain ⟨e, rfl | rfl, he, -⟩ := exists_adjacent hc
  · exact hlow he
  · exact hhigh he

/-! ## The finest grid -/

/-- Sixteen digits behind the first are finer than what rounds to a code. -/
theorem units_lt_gaps (h : 0 < code) :
    2 * units code < 10 ^ 16 * (gap (code - 1) + gap code) := by
  have hg := gap_pos code
  rcases Nat.eq_zero_or_pos (code % fractionCount) with hr | hr
  · -- At a power of two the gap below is only half as wide.
    have hq : code / fractionCount ≠ 0 := by
      rw [fractionCount] at *
      omega
    rw [units_eq, if_neg hq, hr, Nat.add_zero, fractionCount]
    omega
  · have hsame : gap (code - 1) = gap code := by
      rw [gap, gap, fractionCount] at *
      congr 2
      omega
    have hu : units code < 2 * fractionCount * gap code := by
      have hlt : code % fractionCount < fractionCount := Nat.mod_lt _ (by decide)
      rw [units_eq]
      split
      next => exact hlt.trans_le (Nat.le_trans (by omega) (Nat.le_mul_of_pos_right _ hg))
      next => exact Nat.mul_lt_mul_of_pos_right (by omega) hg
    rw [hsame]
    rw [fractionCount] at hu
    omega

theorem midpoint_sub_midpoint (h : 0 < code) : midpoint code (code + 1) - midpoint (code - 1) code =
    (gap (code - 1) + gap code : ℕ) / (2 * unitsPerOne) := by
  have hlow := units_succ (code - 1)
  rw [Nat.sub_add_cancel h] at hlow
  have := cast_unitsPerOne_pos
  rw [midpoint, midpoint, magnitude, magnitude, magnitude, units_succ, hlow]
  push_cast
  field_simp
  ring

theorem zpow_lt_width (h : 0 < code) : (10 : ℚ) ^ (leadingExponent code - 16) <
    midpoint code (code + 1) - midpoint (code - 1) code := by
  have hU := cast_unitsPerOne_pos
  have hlt : (2 * units code : ℚ) < 10 ^ 16 * (gap (code - 1) + gap code : ℕ) := by
    exact_mod_cast units_lt_gaps h
  calc (10 : ℚ) ^ (leadingExponent code - 16)
      = 10 ^ leadingExponent code / 10 ^ 16 := by
        rw [zpow_sub₀ (by norm_num)]
        norm_num
    _ ≤ magnitude code / 10 ^ 16 :=
        div_le_div_of_nonneg_right (leadingExponent_spec h).1 (by positivity)
    _ = 2 * units code / 10 ^ 16 / (2 * unitsPerOne) := by
        rw [magnitude]
        generalize (unitsPerOne : ℚ) = one
        ring
    _ < (gap (code - 1) + gap code : ℕ) / (2 * unitsPerOne) :=
        div_lt_div_of_pos_right ((div_lt_iff₀' (by positivity)).mpr hlt) (mul_pos two_pos hU)
    _ = _ := (midpoint_sub_midpoint h).symm

theorem gridPoint?_ne_none (tie : Tie) (h : 0 < code) :
    gridPoint? tie code (leadingExponent code - 16) ≠ none := by
  have hw := zpow_lt_width h
  generalize leadingExponent code - 16 = k at *
  have hlow := midpoint_lt_magnitude h
  have hhigh := magnitude_lt_midpoint code
  have hb := below_le code k
  have ha := lt_above code k
  intro hnone
  -- The decimal below is above the lower midpoint, or that above is below the upper one.
  rcases lt_or_ge (midpoint (code - 1) code) (below code k).value with hl | hl
  · exact not_between_of_gridPoint? hnone _ ⟨.inl hl, .inl (hb.trans_lt hhigh)⟩
  · have hu : (above code k).value < midpoint code (code + 1) := by
      rw [above_value]
      linarith
    exact not_between_of_gridPoint? hnone _ ⟨.inl (hlow.trans ha), .inl hu⟩

end Markup.Binary64
