import Calculator.Number.Rounding

/-!
# Decimal digits

A positive value is given as a quotient of natural numbers.  It is written with a fixed
number of decimals, or with a fixed number of significant digits and a power of ten.
Both round the exact quotient once, a tie to the even digit.
-/

namespace Calculator

/-- The decimal digits of a natural number. -/
def digits (n : Nat) : List Char :=
  Nat.toDigits 10 n

/-- The decimal digits of a natural number, with zeros in front up to a given count. -/
def paddedDigits (count n : Nat) : List Char :=
  let ds := digits n
  List.replicate (count - ds.length) '0' ++ ds

/-- The exponent of the leading decimal digit of a positive quotient. -/
def leadingExponent (numerator denominator : Nat) : Int :=
  let guess : Int := (digits numerator).length - (digits denominator).length
  if denominator * Nat.pow 10 guess.toNat ≤ numerator * Nat.pow 10 (-guess).toNat then guess
  else guess - 1

/-- `numerator / denominator` divided by `10 ^ exponent`, as a quotient again. -/
def dividedByPowerOfTen (numerator denominator : Nat) (exponent : Int) : Nat × Nat :=
  (numerator * Nat.pow 10 (-exponent).toNat, denominator * Nat.pow 10 exponent.toNat)

/-- A decimal number `significand * 10 ^ exponent`. -/
structure Decimal where
  significand : Nat
  exponent : Int
deriving DecidableEq

namespace Decimal

/-- A positive quotient rounded to `count` significant digits, for a positive `count`.
When rounding carries into a new digit, the exponent grows instead. -/
def ofQuotient (count numerator denominator : Nat) : Decimal :=
  let exponent := leadingExponent numerator denominator - (count - 1 : Nat)
  let (n, d) := dividedByPowerOfTen numerator denominator exponent
  let significand := Rounding.nearestEven.quotient false n d
  if significand = Nat.pow 10 count then ⟨Nat.pow 10 (count - 1), exponent + 1⟩
  else ⟨significand, exponent⟩

/-- The exponent of the leading digit. -/
def leading (x : Decimal) : Int :=
  x.exponent + ((digits x.significand).length - 1 : Nat)

end Decimal

/-- A quotient with `places` decimals. -/
def fixedDigits (places numerator denominator : Nat) : List Char :=
  let scaled := Rounding.nearestEven.quotient false (numerator * Nat.pow 10 places) denominator
  let whole := digits (scaled / Nat.pow 10 places)
  if places = 0 then whole else whole ++ '.' :: paddedDigits places (scaled % Nat.pow 10 places)

/-- The sign in front of a number. -/
def signText (negative : Bool) : String :=
  if negative then "-" else ""

/-- The text of a `Float` that is not finite. -/
def unboundedText (x : Float) : String :=
  match Reading.ofFloat x with
  | .infinite negative => signText negative ++ "inf"
  | _ => "NaN"

/-- A `Float` with `places` decimals. -/
def fixedText (places : Nat) (x : Float) : String :=
  match Reading.ofFloat x with
  | .finite negative m e =>
    signText negative ++
      String.ofList (fixedDigits places (scaledNumerator m e) (scaledDenominator e))
  | _ => unboundedText x

/-- A finite `Float` with `places` digits after a leading one, and the exponent of the
leading digit; a zero has exponent `0`. -/
def exponentialParts (places : Nat) (negative : Bool) (mantissa : Nat) (exponent : Int) :
    String × Int :=
  let decimal : Decimal :=
    if mantissa = 0 then ⟨0, -places⟩
    else
      .ofQuotient (places + 1) (scaledNumerator mantissa exponent) (scaledDenominator exponent)
  let ds := paddedDigits (places + 1) decimal.significand
  let text := match ds with
    | d :: e :: rest => d :: '.' :: e :: rest
    | ds => ds
  (signText negative ++ String.ofList text, decimal.exponent + places)

/-- A `Float` with `places` digits after a leading one, and a power of ten. -/
def exponentialText (places : Nat) (x : Float) : String :=
  match Reading.ofFloat x with
  | .finite negative m e =>
    let (mantissa, exponent) := exponentialParts places negative m e
    mantissa ++ "e" ++ toString exponent
  | _ => unboundedText x

end Calculator
