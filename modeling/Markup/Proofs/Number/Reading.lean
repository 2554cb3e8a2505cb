import Mathlib.Data.Rat.Lemmas
import Mathlib.Tactic.FieldSimp
import Mathlib.Tactic.Linarith
import Mathlib.Tactic.Ring
import Markup.Number.Numeral
import Markup.Proofs.Uri.Splitting

set_option autoImplicit false

/-!
# Reading numerals

A numeral stands for a sign and a magnitude: digits around a point, and perhaps a power of ten. The
two notations of a double stand for the number of its digits, and are told apart by their shape.
-/

namespace Markup.Numeral

/-! ## A reader -/

def readDigits? (text : List Char) : Option ℕ :=
  if text.isEmpty || !text.all Char.isDigit then none else some (Nat.ofDigitChars 10 text 0)

/-- The number of a numeral without an exponent. -/
def readPositional? (text : List Char) : Option ℚ :=
  match Uri.splitAt? '.' text with
  | some (whole, fraction) =>
    match readDigits? whole, readDigits? fraction with
    | some n, some f => some (n + f / 10 ^ fraction.length)
    | _, _ => none
  | none => (readDigits? text).map Nat.cast

def readExponent? : List Char → Option ℤ
  | '-' :: digits => (readDigits? digits).map fun n => -n
  | '+' :: digits => (readDigits? digits).map Nat.cast
  | digits => (readDigits? digits).map Nat.cast

def readMagnitude? (text : List Char) : Option ℚ :=
  match Uri.splitAt? 'e' text with
  | some (mantissa, exponent) =>
    match readPositional? mantissa, readExponent? exponent with
    | some number, some e => some (number * 10 ^ e)
    | _, _ => none
  | none => readPositional? text

def read? : List Char → Option (Bool × ℚ)
  | '-' :: magnitude => (readMagnitude? magnitude).map (true, ·)
  | magnitude => (readMagnitude? magnitude).map (false, ·)

/-! ## Digits -/

def AreDigits (text : List Char) : Prop := text ≠ [] ∧ ∀ c ∈ text, c.isDigit = true

def number (digits : List Char) : ℚ := (Nat.ofDigitChars 10 digits 0 : ℕ)

/-- The number of some digits, the first of which has the given exponent. -/
def value (digits : List Char) (leading : ℤ) : ℚ :=
  number digits * 10 ^ (leading + 1 - digits.length)

theorem AreDigits.not_mem {text : List Char} (h : AreDigits text) {c : Char}
    (hc : c.isDigit = false) : c ∉ text :=
  fun hm => Bool.false_ne_true (hc.symm.trans (h.2 c hm))

theorem AreDigits.isEmpty_eq {text : List Char} (h : AreDigits text) : text.isEmpty = false :=
  List.isEmpty_eq_false_iff.mpr h.1

theorem AreDigits.all_eq {text : List Char} (h : AreDigits text) :
    text.all Char.isDigit = true :=
  List.all_eq_true.mpr h.2

theorem isDigit_of_mem_zeros {n : ℕ} : ∀ c ∈ List.replicate n '0', c.isDigit = true := by
  intro c hc
  rw [List.eq_of_mem_replicate hc]
  rfl

theorem AreDigits.zeros_append {text : List Char} (h : AreDigits text) (n : ℕ) :
    AreDigits (List.replicate n '0' ++ text) :=
  ⟨List.append_ne_nil_of_right_ne_nil _ h.1,
    List.forall_mem_append.mpr ⟨isDigit_of_mem_zeros, h.2⟩⟩

theorem AreDigits.append_zeros {text : List Char} (h : AreDigits text) (n : ℕ) :
    AreDigits (text ++ List.replicate n '0') :=
  ⟨List.append_ne_nil_of_left_ne_nil h.1 _,
    List.forall_mem_append.mpr ⟨h.2, isDigit_of_mem_zeros⟩⟩

theorem areDigits_zero : AreDigits ['0'] := ⟨List.cons_ne_nil _ _, by simp⟩

theorem areDigits_toDigits (n : ℕ) : AreDigits (Nat.toDigits 10 n) :=
  ⟨Nat.toDigits_ne_nil, fun _ hc => Nat.isDigit_of_mem_toDigits (by decide) (by decide) hc⟩

theorem number_toDigits (n : ℕ) : number (Nat.toDigits 10 n) = n := by
  rw [number, Nat.ofDigitChars_ten_toDigits]

theorem number_append (text more : List Char) :
    number (text ++ more) = number text * 10 ^ more.length + number more := by
  rw [number, Nat.ofDigitChars_append, Nat.ofDigitChars_eq_ofDigitChars_zero]
  push_cast
  rw [number, number, mul_comm]

theorem number_zeros (n : ℕ) : number (List.replicate n '0') = 0 := by
  rw [number, Nat.ofDigitChars_replicate_zero, Nat.mul_zero, Nat.cast_zero]

theorem number_append_zeros (text : List Char) (n : ℕ) :
    number (text ++ List.replicate n '0') = number text * 10 ^ n := by
  rw [number_append, number_zeros, List.length_replicate, add_zero]

theorem number_zeros_append (n : ℕ) (text : List Char) :
    number (List.replicate n '0' ++ text) = number text := by
  rw [number_append, number_zeros, zero_mul, zero_add]

theorem readDigits?_eq {text : List Char} (h : AreDigits text) :
    readDigits? text = some (Nat.ofDigitChars 10 text 0) := by
  rw [readDigits?, h.isEmpty_eq, h.all_eq]
  rfl

theorem ofDigitChars_lt {text : List Char} (h : ∀ c ∈ text, c.isDigit = true) :
    Nat.ofDigitChars 10 text 0 < 10 ^ text.length := by
  induction text with
  | nil => simp
  | cons c cs ih =>
    have hc : c.toNat - '0'.toNat ≤ 9 := by
      have := h c List.mem_cons_self
      simp only [Char.isDigit, Bool.and_eq_true, decide_eq_true_eq] at this
      have hle : c.toNat ≤ 57 := this.2
      simp only [Char.reduceToNat]
      omega
    have hcs := ih fun d hd => h d (List.mem_cons_of_mem c hd)
    rw [Nat.ofDigitChars_cons, Nat.mul_zero, Nat.zero_add, Nat.ofDigitChars_eq_ofDigitChars_zero,
      List.length_cons, pow_succ]
    have hm := Nat.mul_le_mul_left (10 ^ cs.length) hc
    omega

theorem value_lt {digits : List Char} (h : AreDigits digits) (leading : ℤ) :
    value digits leading < 10 ^ (leading + 1) := by
  have hlt : number digits < 10 ^ digits.length := by
    rw [number]
    exact_mod_cast ofDigitChars_lt h.2
  have he : leading + 1 = digits.length + (leading + 1 - digits.length) := by ring
  calc value digits leading
      < 10 ^ digits.length * 10 ^ (leading + 1 - digits.length) :=
        mul_lt_mul_of_pos_right hlt (zpow_pos (by norm_num) _)
    _ = 10 ^ (leading + 1) := by
        rw [← zpow_natCast, ← zpow_add₀ (by norm_num), ← he]

/-! ## Digits around a point -/

/-- Digits on both sides of a point. -/
structure Pointed (text whole fraction : List Char) : Prop where
  eq : text = whole ++ '.' :: fraction
  whole : AreDigits whole
  fraction : AreDigits fraction

theorem Pointed.read {text whole fraction : List Char} (h : Pointed text whole fraction) :
    readPositional? text = some (number (whole ++ fraction) / 10 ^ fraction.length) := by
  have hp : '.' ∉ whole := h.whole.not_mem rfl
  rw [readPositional?, h.eq, Uri.splitAt?_append_cons _ hp]
  simp only [readDigits?_eq h.whole, readDigits?_eq h.fraction, Option.some.injEq, number_append]
  rw [number, number]
  field_simp

theorem Pointed.not_mem {text whole fraction : List Char} (h : Pointed text whole fraction)
    {c : Char} (hc : c.isDigit = false) (hp : c ≠ '.') : c ∉ text := by
  rw [h.eq, List.mem_append, List.mem_cons]
  rintro (hm | rfl | hm)
  · exact h.whole.not_mem hc hm
  · exact hp rfl
  · exact h.fraction.not_mem hc hm

section Notations

variable {digits : List Char} (hd : AreDigits digits) {leading : ℤ}
include hd

theorem pointed_of_neg (hl : leading < 0) : Pointed (withFraction (plain digits leading)) ['0']
    (List.replicate (-leading - 1).toNat '0' ++ digits) := by
  refine ⟨?_, areDigits_zero, hd.zeros_append _⟩
  simp [plain, hl, withFraction]

theorem pointed_of_whole (hl : 0 ≤ leading) (hw : digits.length ≤ leading.toNat + 1) :
    Pointed (withFraction (plain digits leading))
      (digits ++ List.replicate (leading.toNat + 1 - digits.length) '0') ['0'] := by
  have ha := hd.append_zeros (leading.toNat + 1 - digits.length)
  have hp := ha.not_mem (rfl : '.'.isDigit = false)
  refine ⟨?_, ha, areDigits_zero⟩
  simp [plain, not_lt.mpr hl, withFraction, List.drop_eq_nil_of_le hw, List.take_of_length_le hw,
    hp]

theorem pointed_of_fraction (hl : 0 ≤ leading) (hw : leading.toNat + 1 < digits.length) :
    Pointed (withFraction (plain digits leading)) (digits.take (leading.toNat + 1))
      (digits.drop (leading.toNat + 1)) := by
  have hn : digits.drop (leading.toNat + 1) ≠ [] := by simp [hw]
  have hz : leading.toNat + 1 - digits.length = 0 := by omega
  refine ⟨?_, ⟨by simp [hd.1], fun c hc => hd.2 c (List.mem_of_mem_take hc)⟩,
    ⟨hn, fun c hc => hd.2 c (List.mem_of_mem_drop hc)⟩⟩
  simp [plain, not_lt.mpr hl, withFraction, hn, hz]

theorem exists_pointed_plain (leading : ℤ) : ∃ whole fraction,
    Pointed (withFraction (plain digits leading)) whole fraction ∧
      number (whole ++ fraction) / 10 ^ fraction.length = value digits leading := by
  rcases lt_or_ge leading 0 with hl | hl
  · refine ⟨_, _, pointed_of_neg hd hl, ?_⟩
    have he : leading + 1 - digits.length = -((-leading - 1).toNat + digits.length : ℕ) := by
      push_cast
      omega
    rw [← List.append_assoc, ← List.replicate_one, ← List.replicate_add, number_zeros_append,
      List.length_append, List.length_replicate, value, he, zpow_neg, zpow_natCast, div_eq_mul_inv]
  · rcases Nat.lt_or_ge (leading.toNat + 1) digits.length with hw | hw
    · refine ⟨_, _, pointed_of_fraction hd hl hw, ?_⟩
      have he : leading + 1 - digits.length = -((digits.length - (leading.toNat + 1) : ℕ) : ℤ) := by
        omega
      rw [List.take_append_drop, List.length_drop, value, he, zpow_neg, zpow_natCast,
        div_eq_mul_inv]
    · refine ⟨_, _, pointed_of_whole hd hl hw, ?_⟩
      have he : leading + 1 - digits.length = ((leading.toNat + 1 - digits.length : ℕ) : ℤ) := by
        omega
      rw [← List.replicate_one, number_append_zeros, number_append_zeros, value, he, zpow_natCast,
        List.length_replicate, mul_div_assoc, div_self (by norm_num), mul_one]

theorem mantissa_shape : (∃ d, digits = [d] ∧ mantissa digits = [d]) ∨
    ∃ first rest, digits = first :: rest ∧ Pointed (mantissa digits) [first] rest := by
  match digits, hd with
  | [d], _ => exact .inl ⟨d, rfl, rfl⟩
  | first :: second :: others, hd =>
    have hfirst : AreDigits [first] := ⟨List.cons_ne_nil _ _, by simpa using hd.2 first⟩
    exact .inr ⟨first, second :: others, rfl, rfl, hfirst, List.cons_ne_nil _ _,
      fun c hc => hd.2 c (List.mem_cons_of_mem _ hc)⟩

theorem read_mantissa : readPositional? (mantissa digits) = some (value digits 0) := by
  rcases mantissa_shape hd with ⟨d, rfl, hm⟩ | ⟨first, rest, rfl, hp⟩
  · have hs : Uri.splitAt? '.' [d] = none := Uri.splitAt?_eq_none (hd.not_mem rfl)
    simp [hm, readPositional?, hs, readDigits?_eq hd, value, number]
  · have he : (0 : ℤ) + 1 - (first :: rest).length = -(rest.length : ℕ) := by simp
    rw [hp.read, value, he, zpow_neg, zpow_natCast, div_eq_mul_inv, List.singleton_append]

theorem not_mem_mantissa {c : Char} (hc : c.isDigit = false) (hp : c ≠ '.') :
    c ∉ mantissa digits := by
  rcases mantissa_shape hd with ⟨d, rfl, hm⟩ | ⟨_, _, _, hm⟩
  · exact hm ▸ hd.not_mem hc
  · exact hm.not_mem hc hp

end Notations

/-! ## Exponents -/

def exponentDigits (width : ℕ) (e : ℤ) : List Char :=
  List.replicate (width - (Nat.toDigits 10 e.natAbs).length) '0' ++ Nat.toDigits 10 e.natAbs

theorem exponentText_eq (width : ℕ) (e : ℤ) :
    exponentText width e = (if e < 0 then '-' else '+') :: exponentDigits width e := rfl

theorem length_exponentDigits (width : ℕ) (e : ℤ) : (exponentDigits width e).length =
    width - (Nat.toDigits 10 e.natAbs).length + (Nat.toDigits 10 e.natAbs).length := by
  rw [exponentDigits, List.length_append, List.length_replicate]

theorem areDigits_exponentDigits (width : ℕ) (e : ℤ) : AreDigits (exponentDigits width e) :=
  (areDigits_toDigits e.natAbs).zeros_append _

theorem read_exponentText (width : ℕ) (e : ℤ) :
    readExponent? (exponentText width e) = some e := by
  have hd := areDigits_exponentDigits width e
  have hn : Nat.ofDigitChars 10 (exponentDigits width e) 0 = e.natAbs := by
    rw [exponentDigits, Nat.ofDigitChars_append, Nat.ofDigitChars_replicate_zero, Nat.mul_zero,
      Nat.ofDigitChars_ten_toDigits]
  rw [exponentText_eq]
  rcases lt_or_ge e 0 with he | he
  · simp [he, readExponent?, readDigits?_eq hd, hn, abs_of_neg he]
  · simp [not_lt.mpr he, readExponent?, readDigits?_eq hd, hn, abs_of_nonneg he]

theorem head?_toDigits_ne_zero {n : ℕ} (hn : n ≠ 0) : (Nat.toDigits 10 n).head? ≠ some '0' := by
  induction n using Nat.strongRecOn with
  | ind n ih =>
    rcases Nat.lt_or_ge n 10 with hlt | hge
    · rw [Nat.toDigits_of_lt_base hlt]
      have hdigit : ∀ m < 10, m ≠ 0 → some m.digitChar ≠ some '0' := by decide
      exact hdigit n hlt hn
    · rw [Nat.toDigits_of_base_le (by decide) hge,
        List.head?_append_of_ne_nil _ Nat.toDigits_ne_nil]
      exact ih (n / 10) (by omega) (by omega)

/-! ## The two notations -/

def IsPositional (text : List Char) : Prop :=
  ∃ whole fraction, Pointed text whole fraction

/-- A mantissa and an exponent with a sign. The mantissa is one digit or has one in front of its
    point. The exponent has two digits or more, and if more, no zero in front. -/
structure Scientific (text mantissa : List Char) (sign : Char) (exponent : List Char) : Prop where
  eq : text = mantissa ++ 'e' :: sign :: exponent
  oneDigit : (AreDigits mantissa ∧ mantissa.length = 1) ∨
    ∃ first rest, Pointed mantissa [first] rest
  isSign : sign = '+' ∨ sign = '-'
  areDigits : AreDigits exponent
  two_le : 2 ≤ exponent.length
  unpadded : 2 < exponent.length → exponent.head? ≠ some '0'

def IsScientific (text : List Char) : Prop :=
  ∃ mantissa sign exponent, Scientific text mantissa sign exponent

theorem IsPositional.not_isScientific {text : List Char} (h : IsPositional text) :
    ¬IsScientific text := by
  rintro ⟨mantissa, sign, exponent, hs⟩
  obtain ⟨whole, fraction, hp⟩ := h
  have hm : 'e' ∉ text := hp.not_mem rfl (by decide)
  simp [hs.eq] at hm

section Magnitudes

variable {digits : List Char} (hd : AreDigits digits) (leading : ℤ)
include hd

theorem isPositional_plain : IsPositional (withFraction (plain digits leading)) :=
  have ⟨whole, fraction, h, _⟩ := exists_pointed_plain hd leading
  ⟨whole, fraction, h⟩

theorem readMagnitude?_plain :
    readMagnitude? (withFraction (plain digits leading)) = some (value digits leading) := by
  obtain ⟨whole, fraction, h, hv⟩ := exists_pointed_plain hd leading
  rw [readMagnitude?, Uri.splitAt?_eq_none (h.not_mem rfl (by decide)), ← hv]
  exact h.read

theorem isScientific_mantissa :
    IsScientific (mantissa digits ++ 'e' :: exponentText 2 leading) := by
  refine ⟨_, _, exponentDigits 2 leading, rfl, ?_, ?_, areDigits_exponentDigits 2 leading, ?_, ?_⟩
  · rcases mantissa_shape hd with ⟨d, rfl, hm⟩ | ⟨first, rest, _, hm⟩
    · exact .inl ⟨hm ▸ hd, congrArg List.length hm⟩
    · exact .inr ⟨first, rest, hm⟩
  · split
    · exact .inr rfl
    · exact .inl rfl
  · rw [length_exponentDigits]
    omega
  · rw [length_exponentDigits]
    intro hl
    -- With more than two digits nothing is padded, and the number is not zero.
    have hz : 2 - (Nat.toDigits 10 leading.natAbs).length = 0 := by omega
    rw [exponentDigits, hz, List.replicate_zero, List.nil_append]
    refine head?_toDigits_ne_zero fun h => ?_
    rw [h, Nat.toDigits_zero] at hl
    exact absurd hl (by decide)

omit hd in
theorem value_mul_zpow : value digits 0 * 10 ^ leading = value digits leading := by
  rw [value, value, mul_assoc, ← zpow_add₀ (by norm_num)]
  congr 2
  ring

theorem readMagnitude?_mantissa :
    readMagnitude? (mantissa digits ++ 'e' :: exponentText 2 leading) =
      some (value digits leading) := by
  rw [readMagnitude?, Uri.splitAt?_append_cons _ (not_mem_mantissa hd rfl (by decide))]
  simp only [read_mantissa hd, read_exponentText, value_mul_zpow]

end Magnitudes

/-! ## Whole numbers -/

theorem integer?_eq_none {bound : ℤ} {text : List Char} {c : Char} (hm : c ∈ text)
    (hc : c.isDigit = false) (hn : c ≠ '-') (hp : c ≠ '+') : integer? bound text = none := by
  unfold integer?
  split
  next negative digits hs =>
    have hd : c ∈ digits := by
      split at hs <;> cases hs <;> simp_all
    have ha : digits.all Char.isDigit = false := List.all_eq_false.mpr ⟨c, hd, by simp [hc]⟩
    simp [ha]

theorem integer?_digits {bound : ℤ} {digits : List Char} (hd : AreDigits digits)
    (hb : (Nat.ofDigitChars 10 digits 0 : ℤ) < bound) :
    integer? bound digits = some (Nat.ofDigitChars 10 digits 0 : ℤ) := by
  unfold integer?
  split
  next negative rest hs =>
    split at hs
    · exact absurd List.mem_cons_self (hd.not_mem rfl)
    · exact absurd List.mem_cons_self (hd.not_mem rfl)
    · cases hs
      have hfits : -bound ≤ (Nat.ofDigitChars 10 digits 0 : ℤ) ∧
          (Nat.ofDigitChars 10 digits 0 : ℤ) < bound := by omega
      simp only [hd.isEmpty_eq, hd.all_eq, Bool.not_true, Bool.or_self, Bool.false_eq_true,
        if_false]
      exact if_pos hfits

theorem integer?_neg_digits {bound : ℤ} {digits : List Char} (hd : AreDigits digits)
    (hb : (Nat.ofDigitChars 10 digits 0 : ℤ) ≤ bound) (hp : 0 < bound) :
    integer? bound ('-' :: digits) = some (-Nat.ofDigitChars 10 digits 0 : ℤ) := by
  unfold integer?
  have hfits : -bound ≤ -(Nat.ofDigitChars 10 digits 0 : ℤ) ∧
      -(Nat.ofDigitChars 10 digits 0 : ℤ) < bound := by omega
  simp only [hd.isEmpty_eq, hd.all_eq, Bool.not_true, Bool.or_self, Bool.false_eq_true, if_false]
  exact if_pos hfits

theorem integer?_toString {bound e : ℤ} (hl : -bound ≤ e) (hu : e < bound) :
    integer? bound (toString e).toList = some e := by
  have hn (n : ℕ) : Nat.ofDigitChars 10 (Nat.toDigits 10 n) 0 = n := Nat.ofDigitChars_ten_toDigits
  rw [Int.toString_eq_repr, Int.repr_eq_if]
  rcases lt_or_ge e 0 with he | he
  · have hm : integer? bound ('-' :: Nat.toDigits 10 (-e).toNat) = _ :=
      integer?_neg_digits (areDigits_toDigits (-e).toNat) (by rw [hn]; omega) (by omega)
    rw [hn] at hm
    rw [if_neg (not_le.mpr he), String.toList_append, Nat.toList_repr]
    exact hm.trans (congrArg some (by omega))
  · have hm : integer? bound (Nat.toDigits 10 e.toNat) = _ :=
      integer?_digits (areDigits_toDigits e.toNat) (by rw [hn]; omega)
    rw [hn] at hm
    rw [if_pos he, Nat.toList_repr]
    exact hm.trans (congrArg some (by omega))

end Markup.Numeral
