import Markup.Number.Binary64

set_option autoImplicit false

/-!
# The shortest decimal of a double

Of the decimals that round to a double, `Binary64.shortest` picks one with the fewest digits, and
of those the nearest. Grids of multiples of `10 ^ k` are tried from coarse to fine; on each only
the two points next to the double matter, because every decimal that rounds to it and lies on the
grid has one of them between itself and the double.
-/

namespace Markup

/-- The number `coefficient * 10 ^ exponent`. -/
structure Decimal where
  coefficient : Nat
  exponent : Int
deriving DecidableEq, Repr

/-- Which of two equally near decimals is taken. -/
inductive Tie where
  | greater
  | even
deriving DecidableEq, Repr

namespace Binary64

/-- Whether a decimal rounds to the magnitude of a code: it lies between the midpoints to the
    neighbouring magnitudes, which themselves round to an even code. -/
def readsBack (code : Nat) (d : Decimal) : Bool :=
  let value := 2 * d.coefficient * Nat.pow 10 d.exponent.toNat * unitsPerOne
  let scale := Nat.pow 10 (-d.exponent).toNat
  let least := (units (code - 1) + units code) * scale
  let most := (units code + units (code + 1)) * scale
  if code % 2 = 0 then least ≤ value && value ≤ most else least < value && value < most

def leadingExponent (code : Nat) : Int :=
  if unitsPerOne ≤ units code then (Nat.toDigits 10 (units code / unitsPerOne)).length - 1
  else -(Nat.toDigits 10 ((unitsPerOne - 1) / units code)).length

/-- The better of the two multiples of `10 ^ k` next to a magnitude, if one of them rounds to it. -/
def gridPoint? (tie : Tie) (code : Nat) (k : Int) : Option Decimal :=
  let num := units code * Nat.pow 10 (-k).toNat
  let den := unitsPerOne * Nat.pow 10 k.toNat
  let lower : Decimal := ⟨num / den, k⟩
  let upper : Decimal := ⟨num / den + 1, k⟩
  let rest := num % den
  if readsBack code lower && readsBack code upper then
    if 2 * rest < den ∨ (2 * rest = den ∧ tie = .even ∧ lower.coefficient % 2 = 0) then some lower
    else some upper
  else if readsBack code lower then some lower
  else if readsBack code upper then some upper
  else none

def exactDecimal (code : Nat) : Decimal := ⟨units code * Nat.pow 5 1074, -1074⟩

/-- The shortest decimal that rounds to a positive magnitude. Seventeen digits always suffice. -/
def shortest (tie : Tie) (code : Nat) : Decimal :=
  let coarsest := leadingExponent code
  let found := (List.range 17).findSome? fun (place : Nat) => gridPoint? tie code (coarsest - place)
  found.getD (exactDecimal code)

end Binary64

end Markup
