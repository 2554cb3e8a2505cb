import Markup.Proofs.Number.Grids
import Markup.Proofs.Number.Reading

set_option autoImplicit false

/-!
# The shortest digits

The search for the shortest decimal of a double goes from coarse grids to fine ones, so that no
digits are fewer than those it finds, nor as many and nearer. The exponent of a finite double fits
into 32 bits.
-/

namespace Markup.Decimal

open Numeral

/-! ## The digits of a decimal -/

theorem toDigits_eq {d : Decimal} (h : d.coefficient ≠ 0) :
    ∃ n, Nat.toDigits 10 d.coefficient = d.digits ++ List.replicate n '0' := by
  generalize hl : (Nat.toDigits 10 d.coefficient).reverse = last
  have hz : ∀ c ∈ (last.takeWhile (· == '0')).reverse, c = '0' := fun c hc => by
    simpa using List.mem_takeWhile_imp (List.mem_reverse.mp hc)
  refine ⟨(last.takeWhile (· == '0')).reverse.length, ?_⟩
  rw [Decimal.digits, if_neg h, hl, ← List.eq_replicate_of_mem hz, ← List.reverse_append,
    List.takeWhile_append_dropWhile, ← hl, List.reverse_reverse]

theorem areDigits_digits (d : Decimal) : AreDigits d.digits := by
  by_cases h : d.coefficient = 0
  · rw [Decimal.digits, if_pos h]
    exact areDigits_zero
  · obtain ⟨n, hn⟩ := toDigits_eq h
    have hd := areDigits_toDigits d.coefficient
    refine ⟨fun he => h ?_, fun c hc => hd.2 c (hn ▸ List.mem_append_left _ hc)⟩
    -- Without a digit left all of them were zeros.
    have hz := number_toDigits d.coefficient
    rw [hn, he, List.nil_append, number_zeros] at hz
    exact_mod_cast hz.symm

theorem head?_digits_ne_zero {d : Decimal} (h : d.coefficient ≠ 0) : d.digits.head? ≠ some '0' := by
  obtain ⟨n, hn⟩ := toDigits_eq h
  have hd := head?_toDigits_ne_zero h
  rwa [hn, List.head?_append_of_ne_nil _ (areDigits_digits d).1] at hd

theorem value_digits (d : Decimal) : Numeral.value d.digits d.leading = d.value := by
  by_cases h : d.coefficient = 0
  · rw [Decimal.digits, if_pos h, Decimal.value, h, Numeral.value]
    have hz : number ['0'] = 0 := number_zeros 1
    rw [hz, zero_mul, Nat.cast_zero, zero_mul]
  · obtain ⟨n, hn⟩ := toDigits_eq h
    have hnum : (d.coefficient : ℚ) = number d.digits * 10 ^ n := by
      rw [← number_toDigits, hn, number_append_zeros]
    have hlen : d.leading + 1 - d.digits.length = n + d.exponent := by
      rw [Decimal.leading, hn, List.length_append, List.length_replicate]
      push_cast
      ring
    rw [Numeral.value, hlen, Decimal.value, hnum, zpow_add₀ (by norm_num), zpow_natCast, mul_assoc]

theorem length_digits_le {d : Decimal} {n : ℕ} (hn : 0 < n) (h : d.coefficient ≤ 10 ^ n) :
    d.digits.length ≤ n := by
  rw [Decimal.digits]
  split
  next => exact hn
  next =>
    rw [List.length_reverse]
    rcases h.lt_or_eq with hlt | heq
    · have hl := (Nat.length_toDigits_le_iff (by decide) hn).mpr hlt
      exact (List.dropWhile_suffix _).length_le.trans (by rwa [List.length_reverse])
    · -- The power of ten itself has one digit more, but that is a zero.
      obtain ⟨m, rfl⟩ := Nat.exists_eq_succ_of_ne_zero hn.ne'
      have hl : (Nat.toDigits 10 (10 ^ m)).length ≤ m + 1 :=
        (Nat.length_toDigits_le_iff (by decide) hn).mpr (Nat.pow_lt_pow_succ (by decide))
      have hsplit : Nat.toDigits 10 d.coefficient = Nat.toDigits 10 (10 ^ m) ++ ['0'] := by
        rw [heq, Nat.pow_succ, mul_comm]
        exact (Nat.toDigits_append_toDigits (b := 10) (d := 0) (by decide)
          (Nat.pow_pos (by decide)) (by decide)).symm
      have hdrop : (['0'].reverse ++ (Nat.toDigits 10 (10 ^ m)).reverse).dropWhile (· == '0') =
          (Nat.toDigits 10 (10 ^ m)).reverse.dropWhile (· == '0') := rfl
      rw [hsplit, List.reverse_append, hdrop]
      exact (List.dropWhile_suffix _).length_le.trans (by rwa [List.length_reverse])

end Markup.Decimal

namespace Markup.Binary64

open Numeral

variable {code : ℕ}

/-! ## The search -/

theorem mem_before_of_lt {n place coarser : ℕ} {before after : List ℕ}
    (h : List.range n = before ++ place :: after) (hlt : coarser < place) : coarser ∈ before := by
  have hp : place < n := List.mem_range.mp (h ▸ List.mem_append_right before List.mem_cons_self)
  have hm : coarser ∈ before ++ place :: after := h ▸ List.mem_range.mpr (hlt.trans hp)
  have hs : (before ++ place :: after).Pairwise (· < ·) := h ▸ List.pairwise_lt_range
  obtain ⟨-, hs, -⟩ := List.pairwise_append.mp hs
  rcases List.mem_append.mp hm with hm | hm
  · exact hm
  · rcases List.mem_cons.mp hm with rfl | hm
    · exact absurd hlt (lt_irrefl _)
    · exact absurd hlt ((List.pairwise_cons.mp hs).1 coarser hm).not_gt

/-- The shortest decimal is on a grid, and no coarser grid that is tried has one. -/
theorem shortest_spec (tie : Tie) (h : 0 < code) : ∃ place : ℕ, place ≤ 16 ∧
    Chosen code (leadingExponent code - place) (shortest tie code) ∧
      ∀ coarser < place, ∀ c : ℕ,
        ¬Between code (Decimal.value ⟨c, leadingExponent code - coarser⟩) := by
  rw [shortest]
  cases hf : (List.range 17).findSome? fun (place : ℕ) =>
      gridPoint? tie code (leadingExponent code - place) with
  | none =>
    exact absurd (List.findSome?_eq_none_iff.mp hf 16 (by decide)) (gridPoint?_ne_none tie h)
  | some d =>
    obtain ⟨before, place, after, hrange, hd, hbefore⟩ := List.findSome?_eq_some_iff.mp hf
    have hp : place ∈ List.range 17 := hrange ▸ List.mem_append_right before List.mem_cons_self
    exact ⟨place, Nat.lt_succ_iff.mp (List.mem_range.mp hp), chosen_of_gridPoint? hd,
      fun coarser hlt => not_between_of_gridPoint? (hbefore coarser (mem_before_of_lt hrange hlt))⟩

/-! ## Other digits -/

/-- Digits that round to a code have a decimal as near on a grid with as many digits. -/
theorem exists_on_grid {digits : List Char} {leading : ℤ} {place : ℕ} (hd : AreDigits digits)
    (h : 0 < code) (hn : digits.length ≤ place + 1) (hb : Between code (value digits leading)) :
    ∃ c, Between code (Decimal.value ⟨c, leadingExponent code - place⟩) ∧
      |magnitude code - Decimal.value ⟨c, leadingExponent code - place⟩| ≤
        |magnitude code - value digits leading| := by
  have hspec := leadingExponent_spec h
  generalize leadingExponent code = first at *
  rcases lt_or_ge leading first with hlt | hge
  · -- They are below the greatest power of ten that fits, which is on every grid.
    have hgrid : Decimal.value ⟨1 * 10 ^ place, first - place⟩ = 10 ^ first := by
      rw [Decimal.value_mul_pow, Nat.cast_one, one_mul, sub_add_cancel]
    have hv : value digits leading < 10 ^ first :=
      (value_lt hd leading).trans_le (zpow_le_zpow_right₀ (by norm_num) (by omega))
    refine ⟨1 * 10 ^ place, ?_, ?_⟩
    · rw [hgrid]
      exact hb.convex (between_magnitude code) hv.le hspec.1
    · rw [hgrid, abs_of_nonneg (by linarith), abs_of_nonneg (by linarith)]
      linarith
  · -- Their last digit is not below the grid.
    obtain ⟨n, hn⟩ : ∃ n : ℕ, leading + 1 - digits.length = first - place + n :=
      ⟨(leading + 1 - digits.length - (first - place)).toNat, by omega⟩
    have hgrid : Decimal.value ⟨Nat.ofDigitChars 10 digits 0 * 10 ^ n, first - place⟩ =
        value digits leading := by
      rw [Decimal.value_mul_pow, value, number, hn]
    exact ⟨_, hgrid ▸ hb, hgrid ▸ le_rfl⟩

/-! ## The digits of a double -/

/-- Digits that round to a code when the first has the given exponent. Other digits that do are
    not fewer, and if as many, not nearer. -/
structure IsShortest (code : ℕ) (digits : List Char) (leading : ℤ) : Prop where
  areDigits : AreDigits digits
  first : if code = 0 then digits = ['0'] ∧ leading = 0 else digits.head? ≠ some '0'
  rounds : RoundsTo code (value digits leading)
  least : ∀ other exponent, AreDigits other → RoundsTo code (value other exponent) →
    digits.length ≤ other.length
  nearest : ∀ other exponent, AreDigits other → RoundsTo code (value other exponent) →
    other.length = digits.length →
      |magnitude code - value digits leading| ≤ |magnitude code - value other exponent|

theorem value_nonneg (digits : List Char) (leading : ℤ) : 0 ≤ value digits leading :=
  mul_nonneg (Nat.cast_nonneg _) (by positivity)

theorem isShortest_zero : IsShortest 0 ['0'] 0 := by
  have hv : value ['0'] 0 = 0 := by rw [value, show number ['0'] = 0 from number_zeros 1, zero_mul]
  refine ⟨areDigits_zero, ⟨rfl, rfl⟩, ?_, ?_, ?_⟩
  · rw [hv, ← magnitude_zero]
    exact roundsTo_magnitude 0
  · intro other _ ho _
    exact List.length_pos_iff.mpr ho.1
  · intro other exponent _ _ _
    rw [hv, magnitude_zero, sub_zero, abs_zero]
    exact abs_nonneg _

theorem coefficient_le {place : ℕ} {d : Decimal} (h : 0 < code)
    (hd : Chosen code (leadingExponent code - place) d) : d.coefficient ≤ 10 ^ (place + 1) := by
  have hlt := (leadingExponent_spec h).2
  have he : leadingExponent code - place + (place + 1 : ℕ) = leadingExponent code + 1 := by
    push_cast
    ring
  have hv : (below code (leadingExponent code - place)).value <
      Decimal.value ⟨1 * 10 ^ (place + 1), leadingExponent code - place⟩ := by
    rw [Decimal.value_mul_pow, he, Nat.cast_one, one_mul]
    exact (below_le code _).trans_lt hlt
  have hbelow : (below code (leadingExponent code - place)).coefficient < 1 * 10 ^ (place + 1) :=
    not_le.mp fun hle => (value_mono hle _).not_gt hv
  rw [one_mul] at hbelow
  rcases hd.adjacent with rfl | rfl
  · exact hbelow.le
  · exact hbelow

theorem leading_decimal_zero (tie : Tie) : (decimal tie 0).leading = 0 := by
  rw [Decimal.leading, decimal, if_pos rfl, Nat.toDigits_zero]
  rfl

/-- The program's decimal of a code has the shortest digits, and of these the nearest. -/
theorem isShortest_decimal (tie : Tie) (code : ℕ) :
    IsShortest code (decimal tie code).digits (decimal tie code).leading := by
  rcases Nat.eq_zero_or_pos code with rfl | h
  · rw [leading_decimal_zero]
    exact isShortest_zero
  rw [decimal, if_neg h.ne']
  obtain ⟨place, hplace, hd, hcoarser⟩ := shortest_spec tie h
  generalize shortest tie code = d at *
  have hrounds := hd.between.roundsTo
  have hne : d.coefficient ≠ 0 := by
    intro hz
    have hv : d.value = magnitude 0 := by
      rw [Decimal.value, hz, Nat.cast_zero, zero_mul, magnitude_zero]
    exact h.ne' (hrounds.unique (hv ▸ roundsTo_magnitude 0))
  have hlength := Decimal.length_digits_le (Nat.succ_pos place) (coefficient_le h hd)
  refine ⟨d.areDigits_digits, ?_, ?_, ?_, ?_⟩
  · rw [if_neg h.ne']
    exact Decimal.head?_digits_ne_zero hne
  · rwa [Decimal.value_digits]
  · intro other exponent ho hr
    by_contra hlt
    have hpos := List.length_pos_iff.mpr ho.1
    have hn : other.length ≤ other.length - 1 + 1 := by omega
    obtain ⟨c, hc, -⟩ := exists_on_grid ho h hn (hr.between (value_nonneg _ _))
    exact hcoarser (other.length - 1) (by omega) c hc
  · intro other exponent ho hr hl
    have hn : other.length ≤ place + 1 := hl.trans_le hlength
    obtain ⟨c, hc, hle⟩ := exists_on_grid ho h hn (hr.between (value_nonneg _ _))
    rw [Decimal.value_digits]
    exact (hd.nearest_on_grid hc).trans hle

/-! ## The range of exponents -/

theorem unitsPerOne_le : unitsPerOne ≤ 10 ^ 324 := by decide +kernel

theorem units_infinityCode_le : units infinityCode ≤ 10 ^ 309 * unitsPerOne := by decide +kernel

theorem leadingExponent_bounds (h : 0 < code) (hf : code < infinityCode) :
    -324 ≤ leadingExponent code ∧ leadingExponent code ≤ 308 := by
  have hu := units_pos h
  rw [leadingExponent]
  split
  next =>
    have hpos : 0 < (Nat.toDigits 10 (units code / unitsPerOne)).length := Nat.length_toDigits_pos
    have hle := length_quotient_le (by decide) unitsPerOne_pos
      ((units_strictMono hf).trans_le units_infinityCode_le)
    omega
  next =>
    have hlt : unitsPerOne - 1 < 10 ^ 324 * units code :=
      Nat.lt_of_lt_of_le (Nat.sub_one_lt unitsPerOne_pos.ne')
        (Nat.le_trans unitsPerOne_le (Nat.le_mul_of_pos_right _ hu))
    have hle := length_quotient_le (by decide) hu hlt
    omega

theorem leading_bounds (tie : Tie) (h : code < infinityCode) :
    -exponentBound ≤ (decimal tie code).leading ∧ (decimal tie code).leading < exponentBound := by
  have hbound : exponentBound = 2147483648 := rfl
  rcases Nat.eq_zero_or_pos code with rfl | hc
  · have := leading_decimal_zero tie
    omega
  rw [decimal, if_neg hc.ne']
  obtain ⟨place, hplace, hd, -⟩ := shortest_spec tie hc
  have hle := coefficient_le hc hd
  have hfirst := leadingExponent_bounds hc h
  have hexp : (shortest tie code).exponent = leadingExponent code - place := by
    rcases hd.adjacent with he | he <;> rw [he] <;> rfl
  have hlen : (Nat.toDigits 10 (shortest tie code).coefficient).length ≤ place + 2 :=
    (Nat.length_toDigits_le_iff (by decide) (by omega)).mpr
      (hle.trans_lt (Nat.pow_lt_pow_succ (by decide)))
  have hpos : 0 < (Nat.toDigits 10 (shortest tie code).coefficient).length :=
    Nat.length_toDigits_pos
  rw [Decimal.leading, hexp]
  omega

end Markup.Binary64
