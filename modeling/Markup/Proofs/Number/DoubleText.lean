import Markup.Proofs.Number.ShortestDigits

set_option autoImplicit false

/-!
# Doubles in markup

The text of a finite double is put together from its two plain texts. It stands for the number of
the shortest digits of the double, so it tells finite doubles apart, and from whole numbers.
-/

namespace Markup.Binary64

open Numeral

variable {x y : Binary64}

/-! ## The sign -/

theorem signed_append (x : Binary64) (magnitude more : List Char) :
    x.signed (magnitude ++ more) = x.signed magnitude ++ more := by
  rw [signed, signed]
  split <;> rfl

theorem withFraction_signed (x : Binary64) (magnitude : List Char) :
    withFraction (x.signed magnitude) = x.signed (withFraction magnitude) := by
  rw [signed, signed]
  split
  next =>
    have hc : ('-' :: magnitude).contains '.' = magnitude.contains '.' := by simp
    rw [withFraction, withFraction, hc]
    split <;> rfl
  next => rfl

theorem not_mem_signed {c : Char} {magnitude : List Char} (hc : c ≠ '-') (h : c ∉ magnitude) :
    c ∉ x.signed magnitude := by
  rw [signed]
  split
  next => exact List.not_mem_cons_of_ne_of_not_mem hc h
  next => exact h

theorem mem_signed {c : Char} {magnitude : List Char} (h : c ∈ magnitude) :
    c ∈ x.signed magnitude := by
  rw [signed]
  split
  next => exact List.mem_cons_of_mem _ h
  next => exact h

theorem read?_signed {magnitude : List Char} (h : magnitude.head? ≠ some '-') :
    read? (x.signed magnitude) = (readMagnitude? magnitude).map (x.isNegative, ·) := by
  rw [signed]
  split
  next hs => rw [read?, hs]
  next hs =>
    rw [Bool.not_eq_true] at hs
    rw [hs, read?]
    rintro rest rfl
    exact h rfl

theorem eq_of_code (hs : x.isNegative = y.isNegative) (hc : x.code = y.code) : x = y := by
  have hx := x.bits.toNat_lt
  have hy := y.bits.toNat_lt
  have hn : signWeight ≤ x.bits.toNat ↔ signWeight ≤ y.bits.toNat := decide_eq_decide.mp hs
  rw [code, code] at hc
  rw [signWeight] at hc hn
  have hb : x.bits = y.bits := UInt64.toNat_inj.mp (by omega)
  cases x
  cases y
  exact congrArg _ hb

/-! ## The text -/

/-- The magnitude of a double in markup, by its shortest digits. -/
def magnitudeText (digits : List Char) (leading : ℤ) : List Char :=
  if -4 ≤ leading ∧ leading < 16 then withFraction (plain digits leading)
  else mantissa digits ++ 'e' :: exponentText 2 leading

/-- What the two plain texts of a finite double are put together to. -/
theorem text_eq (h : x.isFinite = true) : x.text.toList =
    x.signed (magnitudeText x.markupDecimal.digits x.markupDecimal.leading) := by
  have hf : x.code < infinityCode := of_decide_eq_true h
  have hnan : x.isNaN = false := decide_eq_false (by omega)
  have hinf : x.isInfinite = false := beq_eq_false_iff_ne.mpr hf.ne
  have hfits : -exponentBound ≤ x.markupDecimal.leading ∧ x.markupDecimal.leading < exponentBound :=
    leading_bounds .greater hf
  have hd := x.markupDecimal.areDigits_digits
  -- The mantissa has no `e`, so the text with an exponent is split in front of that.
  have he : 'e' ∉ x.signed (mantissa x.markupDecimal.digits) :=
    not_mem_signed (by decide) (not_mem_mantissa hd rfl (by decide))
  have hclear := Text.bne_of_not_mem he
  have hstop : ∀ c ∈ ('e' :: (toString x.markupDecimal.leading).toList).head?,
      (c != 'e') = false := by
    rintro c ⟨⟩
    rfl
  have hexp : x.exponential = x.signed (mantissa x.markupDecimal.digits) ++
      'e' :: (toString x.markupDecimal.leading).toList := signed_append x _ _
  have htake := Text.takeWhile_append_of_stop hclear hstop
  have hdrop := Text.dropWhile_append_of_stop hclear hstop
  rw [← hexp] at htake hdrop
  rw [text, hnan, hinf, magnitudeText]
  simp only [Bool.false_eq_true, if_false, hdrop, htake]
  rw [integer?_toString hfits.1 hfits.2]
  simp only
  split
  next => rw [String.toList_ofList, positional, withFraction_signed]
  next => rw [String.toList_ofList, signed_append]

/-! ## Its shape -/

theorem isPositional_magnitudeText {digits : List Char} (hd : AreDigits digits) (leading : ℤ) :
    IsPositional (magnitudeText digits leading) ↔ -4 ≤ leading ∧ leading < 16 := by
  rw [magnitudeText]
  split
  next h => exact iff_of_true (isPositional_plain hd leading) h
  next h => exact iff_of_false (fun hp => hp.not_isScientific (isScientific_mantissa hd leading)) h

theorem isScientific_magnitudeText {digits : List Char} (hd : AreDigits digits) (leading : ℤ) :
    IsScientific (magnitudeText digits leading) ↔ ¬(-4 ≤ leading ∧ leading < 16) := by
  rw [magnitudeText]
  split
  next h => exact iff_of_false (isPositional_plain hd leading).not_isScientific (not_not_intro h)
  next h => exact iff_of_true (isScientific_mantissa hd leading) h

theorem readMagnitude?_magnitudeText {digits : List Char} (hd : AreDigits digits) (leading : ℤ) :
    readMagnitude? (magnitudeText digits leading) = some (value digits leading) := by
  rw [magnitudeText]
  split
  · exact readMagnitude?_plain hd leading
  · exact readMagnitude?_mantissa hd leading

theorem isPositional_or_isScientific {digits : List Char} (hd : AreDigits digits) (leading : ℤ) :
    IsPositional (magnitudeText digits leading) ∨ IsScientific (magnitudeText digits leading) := by
  rw [isPositional_magnitudeText hd, isScientific_magnitudeText hd]
  exact Decidable.em _

section Marks

variable {text : List Char} (h : IsPositional text ∨ IsScientific text)
include h

theorem exists_mark : ∃ c ∈ text, c.isDigit = false ∧ c ≠ '-' ∧ c ≠ '+' := by
  rcases h with ⟨whole, fraction, h⟩ | ⟨mantissa, sign, exponent, h⟩
  · exact ⟨'.', h.eq ▸ by simp, by decide⟩
  · exact ⟨'e', h.eq ▸ by simp, by decide⟩

theorem head?_ne_minus : text.head? ≠ some '-' := by
  intro hm
  rcases h with ⟨whole, fraction, h⟩ | ⟨mantissa, sign, exponent, h⟩
  · exact h.not_mem rfl (by decide) (List.mem_of_mem_head? hm)
  · have hne : mantissa ≠ [] := by
      rcases h.oneDigit with ⟨hd, -⟩ | ⟨first, rest, hp⟩
      · exact hd.1
      · simp [hp.eq]
    rw [h.eq, List.head?_append_of_ne_nil _ hne] at hm
    rcases h.oneDigit with ⟨hd, -⟩ | ⟨first, rest, hp⟩
    · exact hd.not_mem rfl (List.mem_of_mem_head? hm)
    · exact hp.not_mem rfl (by decide) (List.mem_of_mem_head? hm)

end Marks

/-! ## What the text denotes -/

theorem read?_text (h : x.isFinite = true) : read? x.text.toList =
    some (x.isNegative, value x.markupDecimal.digits x.markupDecimal.leading) := by
  have hd := x.markupDecimal.areDigits_digits
  rw [text_eq h, read?_signed (head?_ne_minus (isPositional_or_isScientific hd _)),
    readMagnitude?_magnitudeText hd, Option.map_some]

theorem eq_of_text (hx : x.isFinite = true) (hy : y.isFinite = true) (h : x.text = y.text) :
    x = y := by
  have hr := read?_text hx
  rw [h, read?_text hy, Option.some.injEq, Prod.mk.injEq] at hr
  have hrx : RoundsTo x.code _ := (isShortest_decimal .greater x.code).rounds
  have hry : RoundsTo y.code _ := (isShortest_decimal .greater y.code).rounds
  have hv : value (decimal .greater y.code).digits (decimal .greater y.code).leading =
      value (decimal .greater x.code).digits (decimal .greater x.code).leading := hr.2
  exact eq_of_code hr.1.symm (hrx.unique (hv ▸ hry))

/-- The text of a finite double stands for the number of its shortest digits, with its sign. It is
    in positional notation exactly from `0.0001` up to below `10 ^ 16` and otherwise has an
    exponent. So it is no whole number, and no other finite double has it. -/
theorem text_denotes (h : x.isFinite = true) :
    IsShortest x.code x.markupDecimal.digits x.markupDecimal.leading ∧
      read? x.text.toList =
        some (x.isNegative, value x.markupDecimal.digits x.markupDecimal.leading) ∧
      (∃ magnitude, x.text.toList = x.signed magnitude ∧
        (IsPositional magnitude ↔ -4 ≤ x.markupDecimal.leading ∧ x.markupDecimal.leading < 16) ∧
        (IsScientific magnitude ↔
          ¬(-4 ≤ x.markupDecimal.leading ∧ x.markupDecimal.leading < 16))) ∧
      (∀ bound, integer? bound x.text.toList = none) ∧
      ∀ y : Binary64, y.isFinite = true → x.text = y.text → x = y := by
  have hd := x.markupDecimal.areDigits_digits
  obtain ⟨c, hm, hc, hminus, hplus⟩ := exists_mark (isPositional_or_isScientific hd
    x.markupDecimal.leading)
  refine ⟨isShortest_decimal .greater x.code, read?_text h, ⟨_, text_eq h,
    isPositional_magnitudeText hd _, isScientific_magnitudeText hd _⟩, fun bound => ?_,
    fun y hy => eq_of_text h hy⟩
  rw [text_eq h]
  exact integer?_eq_none (mem_signed hm) hc hminus hplus

/-- The double next to a ten-millionth is written `1e-07`, and is the only one. -/
theorem text_denotes_ten_millionth :
    let x : Binary64 := ⟨0x3E7AD7F29ABCAF48⟩
    x.isFinite = true ∧ IsShortest x.code ['1'] (-7) ∧ x.text = "1e-07" ∧
      read? x.text.toList = some (false, 1 / 10 ^ 7) ∧
      ∀ y : Binary64, y.isFinite = true → x.text = y.text → x = y := by
  intro x
  have hf : x.isFinite = true := by decide
  have hd : x.markupDecimal.digits = ['1'] := by decide +kernel
  have hl : x.markupDecimal.leading = -7 := by decide +kernel
  have hv : value ['1'] (-7) = 1 / 10 ^ 7 := by
    rw [value, number, show Nat.ofDigitChars 10 ['1'] 0 = 1 from rfl]
    norm_num
  obtain ⟨hs, hr, -, -, hu⟩ := text_denotes hf
  rw [hd, hl] at hs hr
  exact ⟨hf, hs, by decide +kernel, hr.trans (by rw [hv]; rfl), hu⟩

end Markup.Binary64
