import Markup.Number.Shortest

set_option autoImplicit false

/-!
# Numerals

How a double is written, from its shortest digits. Positional notation is for moderate exponents of
the leading digit, mantissa and exponent are for the others. A `NumeralStyle` fixes what "moderate"
means, how wide the exponent is and which way ties go. Numbers in markup are put together from the
plain numerals of both kinds.
-/

namespace Markup

structure NumeralStyle where
  /-- The least exponent of the leading digit that is written positionally. -/
  leastPositional : Int
  /-- The greatest exponent of the leading digit that is written positionally. -/
  mostPositional : Int
  exponentWidth : Nat
  tie : Tie

/-- The significant digits of a decimal, without zeros at the end. -/
def Decimal.digits (d : Decimal) : List Char :=
  if d.coefficient = 0 then ['0']
  else ((Nat.toDigits 10 d.coefficient).reverse.dropWhile (· == '0')).reverse

def Decimal.leading (d : Decimal) : Int :=
  d.exponent + (Nat.toDigits 10 d.coefficient).length - 1

namespace Numeral

/-- Digits around a decimal point, which only comes with a fraction. -/
def plain (digits : List Char) (leading : Int) : List Char :=
  if leading < 0 then
    '0' :: '.' :: List.replicate (-leading - 1).toNat '0' ++ digits
  else
    let whole := leading.toNat + 1
    let fraction := digits.drop whole
    digits.take whole ++ List.replicate (whole - digits.length) '0' ++
      if fraction.isEmpty then [] else '.' :: fraction

def withFraction (numeral : List Char) : List Char :=
  if numeral.contains '.' then numeral else numeral ++ ['.', '0']

def mantissa : List Char → List Char
  | first :: second :: others => first :: '.' :: second :: others
  | few => few

def exponentText (width : Nat) (e : Int) : List Char :=
  let digits := Nat.toDigits 10 e.natAbs
  (if e < 0 then '-' else '+') :: List.replicate (width - digits.length) '0' ++ digits

def ofDecimal (style : NumeralStyle) (d : Decimal) : List Char :=
  if style.leastPositional ≤ d.leading ∧ d.leading ≤ style.mostPositional then
    withFraction (plain d.digits d.leading)
  else mantissa d.digits ++ 'e' :: exponentText style.exponentWidth d.leading

/-- A whole number in decimal digits, with or without a sign, if it fits between a bound and its
    negative, which itself fits. -/
def integer? (bound : Int) (text : List Char) : Option Int :=
  let (negative, digits) := match text with
    | '-' :: rest => (true, rest)
    | '+' :: rest => (false, rest)
    | rest => (false, rest)
  if digits.isEmpty || !digits.all Char.isDigit then none
  else
    let magnitude : Int := Nat.ofDigitChars 10 digits 0
    let value := if negative then -magnitude else magnitude
    if -bound ≤ value ∧ value < bound then some value else none

end Numeral

namespace Binary64

def decimal (tie : Tie) (code : Nat) : Decimal :=
  if code = 0 then ⟨0, 0⟩ else shortest tie code

def signed (x : Binary64) (magnitude : List Char) : List Char :=
  if x.isNegative then '-' :: magnitude else magnitude

def numeral (style : NumeralStyle) (x : Binary64) : String :=
  if x.isNaN then "nan"
  else
    let magnitude :=
      if x.isInfinite then "inf".toList
      else Numeral.ofDecimal style (decimal style.tie x.code)
    String.ofList (x.signed magnitude)

/-- The decimal of a finite double in markup: of two equally near ones the greater. -/
def markupDecimal (x : Binary64) : Decimal := decimal .greater x.code

/-- A finite double as mantissa and exponent, with a sign only below zero. -/
def exponential (x : Binary64) : List Char :=
  x.signed (Numeral.mantissa x.markupDecimal.digits ++
    'e' :: (toString x.markupDecimal.leading).toList)

def positional (x : Binary64) : List Char :=
  x.signed (Numeral.plain x.markupDecimal.digits x.markupDecimal.leading)

/-- The least integer that does not fit into 32 bits with a sign. -/
def exponentBound : Int := 0x80000000

/-- A double as it reads in markup: positional from `0.0001` up to below `10 ^ 16`, otherwise with
    an exponent of two digits or more. -/
def text (x : Binary64) : String :=
  if x.isNaN then "nan"
  else if x.isInfinite then if x.isNegative then "-inf" else "inf"
  else
    let scientific := x.exponential
    match scientific.dropWhile (· != 'e') with
    | [] => String.ofList scientific
    | _ :: exponent =>
      match Numeral.integer? exponentBound exponent with
      | none => String.ofList scientific
      | some e =>
        if -4 ≤ e ∧ e < 16 then String.ofList (Numeral.withFraction x.positional)
        else
          let mantissa := scientific.takeWhile (· != 'e')
          String.ofList (mantissa ++ 'e' :: Numeral.exponentText 2 e)

end Binary64

end Markup
