set_option autoImplicit false

/-!
# Double-precision numbers

A double is its 64 bits. Below the sign, the remaining bits are the *code* of the magnitude, and
the order of codes is the order of magnitudes. Every finite magnitude is a whole number of units
of `2 ^ -1074`, the least positive double, so magnitudes are natural numbers here and rounding is
exact integer arithmetic.
-/

namespace Markup

/-- A double-precision number, by its bits. -/
structure Binary64 where
  bits : UInt64
deriving Repr

/-- A quotient rounded to the nearest natural number, a half to the even one. -/
def roundQuotient (num den : Nat) : Nat :=
  let floor := num / den
  let rest := num % den
  if den < 2 * rest ∨ (2 * rest = den ∧ floor % 2 = 1) then floor + 1 else floor

namespace Binary64

/-- The weight of the sign bit, and the number of codes. -/
def signWeight : Nat := 0x8000000000000000

def fractionCount : Nat := 0x10000000000000

def isNegative (x : Binary64) : Bool := signWeight ≤ x.bits.toNat

def code (x : Binary64) : Nat := x.bits.toNat % signWeight

/-- The code of infinity. Lower codes are finite, higher ones are not numbers. -/
def infinityCode : Nat := 0x7FF0000000000000

def isNaN (x : Binary64) : Bool := infinityCode < x.code
def isInfinite (x : Binary64) : Bool := x.code == infinityCode
def isFinite (x : Binary64) : Bool := x.code < infinityCode

def ofCode (negative : Bool) (code : Nat) : Binary64 :=
  ⟨UInt64.ofNat (code + if negative then signWeight else 0)⟩

def unitsPerOne : Nat := Nat.pow 2 1074

def units (code : Nat) : Nat :=
  let exponent := code / fractionCount
  let fraction := code % fractionCount
  if exponent = 0 then fraction else (fractionCount + fraction) * Nat.pow 2 (exponent - 1)

/-- The code nearest to a quotient; of two equally near the even one. -/
def codeOfQuotient (num den : Nat) : Nat :=
  let scaled := num * unitsPerOne
  let shift := (scaled / den).log2 - 52
  min (shift * fractionCount + roundQuotient scaled (den * Nat.pow 2 shift)) infinityCode

def ofRat (r : Rat) : Binary64 :=
  ofCode (r.num < 0) (codeOfQuotient r.num.natAbs r.den)

def ofNat (n : Nat) : Binary64 := ofCode false (codeOfQuotient n 1)

def neg (x : Binary64) : Binary64 := ofCode (!x.isNegative) x.code

def productCode (a b : Nat) : Nat :=
  codeOfQuotient (units a * units b) (unitsPerOne * unitsPerOne)

def quotientCode (a b : Nat) : Nat := codeOfQuotient (units a) (units b)

/-- Equality of numbers: a zero equals the other zero, and nothing equals what is no number. -/
def numEq (x y : Binary64) : Bool :=
  !x.isNaN && !y.isNaN && (x.bits == y.bits || (x.code == 0 && y.code == 0))

/-- How many of the least positive single-precision number make one. -/
def singleUnits : Nat := Nat.pow 2 149

def ofSingleBits (bits : UInt32) : Binary64 :=
  let negative := decide (0x80000000 ≤ bits.toNat)
  let exponent := bits.toNat / 0x800000 % 0x100
  let fraction := bits.toNat % 0x800000
  if exponent = 255 then ofCode negative (infinityCode + fraction * 0x20000000)
  else if exponent = 0 then ofCode negative (codeOfQuotient fraction singleUnits)
  else
    let magnitude := (0x800000 + fraction) * Nat.pow 2 (exponent - 1)
    ofCode negative (codeOfQuotient magnitude singleUnits)

end Binary64

end Markup
