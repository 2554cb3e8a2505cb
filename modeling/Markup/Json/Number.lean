import Markup.Json.Token
import Markup.Number.Numeral

set_option autoImplicit false

/-!
# JSON numbers

A number without fraction and exponent is an integer if it fits into 64 bits. Any other number is a
double: its digits are gathered into a 64-bit significand, which is then scaled by powers of ten,
each of them a double itself. So a number is rounded twice, and not always to the nearest double.
-/

namespace Markup.Json

inductive Number where
  | unsigned (value : UInt64)
  | negative (value : Int64) (below : value < 0)
  | float (value : Binary64)

namespace Number

/-- A number as an integer with a sign, if it is one and fits into 64 bits. -/
def asSigned? : Number → Option Int64
  | .unsigned value => if value ≤ 0x7FFFFFFFFFFFFFFF then some value.toInt64 else none
  | .negative value _ => some value
  | .float _ => none

def asUnsigned? : Number → Option UInt64
  | .unsigned value => some value
  | .negative _ _ => none
  | .float _ => none

def asDouble : Number → Binary64
  | .unsigned value => Binary64.ofNat value.toNat
  | .negative value _ => (Binary64.ofNat value.toInt.natAbs).neg
  | .float value => value

def maxSignificand : Nat := 0xFFFFFFFFFFFFFFFF

/-- The greatest exponent that is read digit by digit. -/
def maxExponent : Nat := 0x7FFFFFFF

def digitValue (c : Char) : Nat := c.toNat - 0x30

/-- Appends digits to a number as long as it does not exceed a limit, and counts the digits left
    over from the first that would make it so. -/
def gather (limit : Nat) : Nat → List Char → Nat × Nat
  | value, [] => (value, 0)
  | value, c :: rest =>
    let next := value * 10 + digitValue c
    if next ≤ limit then gather limit next rest else (value, rest.length + 1)

def tenCode (n : Nat) : Nat := Binary64.codeOfQuotient (Nat.pow 10 n) 1

/-- A magnitude divided by a power of ten, by at most `10 ^ 308` at a time. -/
def scaleDown (code n : Nat) : Nat :=
  if n ≤ 308 then Binary64.quotientCode code (tenCode n)
  else if code = 0 then 0
  else scaleDown (Binary64.quotientCode code (tenCode 308)) (n - 308)
termination_by n
decreasing_by omega

def scale? (significand : Nat) (exponent : Int) : Option Nat :=
  let code := Binary64.codeOfQuotient significand 1
  if exponent < 0 then some (scaleDown code exponent.natAbs)
  else if exponent ≤ 308 then
    let scaled := Binary64.productCode code (tenCode exponent.toNat)
    if scaled = Binary64.infinityCode then none else some scaled
  else if code = 0 then some 0
  else none

def magnitude? (significand : Nat) (shift : Int) : Option Exponent → Option Nat
  | none => scale? significand shift
  | some exponent =>
    match gather maxExponent 0 exponent.digits with
    | (value, 0) => scale? significand (if exponent.negative then shift - value else shift + value)
    | _ => if significand ≠ 0 ∧ !exponent.negative then none else some 0

/-- The significand of a fraction behind a whole part, and the exponent that goes with it. -/
def withFraction (significand : Nat) (shift : Int) (fraction : List Char) : Nat × Int :=
  let (value, left) := gather maxSignificand significand fraction
  (value, shift - (fraction.length - left : Nat))

theorem ofInt_neg {value : Int} (h : -0x8000000000000000 ≤ value ∧ value < 0) :
    Int64.ofInt value < 0 := by
  rw [Int64.lt_iff_toInt_lt, Int64.toInt_ofInt_of_le h.1 (by omega), Int64.toInt_zero]
  exact h.2

def ofDigits? (digits : Digits) : Option Number :=
  let (significand, dropped) := gather maxSignificand 0 digits.whole
  if dropped = 0 ∧ digits.fraction?.isNone ∧ digits.exponent?.isNone then
    if !digits.negative then some (.unsigned (UInt64.ofNat significand))
    else if h : significand ≠ 0 ∧ significand ≤ 0x8000000000000000 then
      some (.negative (Int64.ofInt (-significand)) (ofInt_neg (by omega)))
    else some (.float (Binary64.ofNat significand).neg)
  else
    let (value, shift) := match digits.fraction? with
      | some fraction => withFraction significand dropped fraction
      | none => (significand, (dropped : Int))
    (magnitude? value shift digits.exponent?).map fun code =>
      .float (Binary64.ofCode digits.negative code)

/-- Doubles in JSON texts: positional from `0.00001` up to below `10 ^ 16`, otherwise with a signed
    exponent; of two equally near decimals the even one. -/
def style : NumeralStyle := ⟨-5, 15, 1, .even⟩

def text : Number → String
  | .unsigned value => toString value.toNat
  | .negative value _ => toString value.toInt
  | .float value => value.numeral style

end Number

end Markup.Json
