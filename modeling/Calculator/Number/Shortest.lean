import Calculator.Number.Decimal

/-!
# Shortest decimals

The text of a number has as few digits as reading it back allows.  The values that read
back as a `Float` form an interval around it, which reaches half way to the two
neighbours, ends included when the mantissa is even.  With one, two, three, … digits,
the two decimals next to the value are tried; the first that lies in the interval is
taken, and of two the nearer.
-/

namespace Calculator

/-- The values that read back as a given positive `Float`: from `low` to `high` over
`denominator`, the ends included or not. -/
structure ReadBack where
  low : Nat
  high : Nat
  denominator : Nat
  closed : Bool

namespace ReadBack

/-- The interval around `mantissa * 2 ^ exponent`.  Below a power of two the neighbour is
only half as far away. -/
def around (mantissa : Nat) (exponent : Int) : ReadBack where
  low := scaledNumerator
    (4 * mantissa - if mantissa = Nat.pow 2 52 ∧ -1074 < exponent then 1 else 2) exponent
  high := scaledNumerator (4 * mantissa + 2) exponent
  denominator := 4 * scaledDenominator exponent
  closed := mantissa % 2 == 0

/-- Whether a decimal lies in the interval. -/
def contains (interval : ReadBack) (x : Decimal) : Bool :=
  let value := x.significand * Nat.pow 10 x.exponent.toNat * interval.denominator
  let unit := Nat.pow 10 (-x.exponent).toNat
  if interval.closed then
    interval.low * unit ≤ value && value ≤ interval.high * unit
  else
    interval.low * unit < value && value < interval.high * unit

end ReadBack

/-- The decimal with the given exponent that lies in the interval and is nearest to the
quotient, if there is one; a tie goes to the larger. -/
def nearestReadBack? (interval : ReadBack) (numerator denominator : Nat) (exponent : Int) :
    Option Decimal :=
  let (n, d) := dividedByPowerOfTen numerator denominator exponent
  let below : Decimal := ⟨n / d, exponent⟩
  let above : Decimal := ⟨n / d + 1, exponent⟩
  match interval.contains below, interval.contains above with
  | true, true => some (if 2 * (n % d) < d then below else above)
  | true, false => some below
  | false, true => some above
  | false, false => none

/-- The first decimal that reads back, from the given exponent downward, with at most
`count` exponents tried; the value rounded down when there is none. -/
def shortestFrom (interval : ReadBack) (numerator denominator : Nat) (exponent : Int) :
    Nat → Decimal
  | 0 =>
    let (n, d) := dividedByPowerOfTen numerator denominator exponent
    ⟨n / d, exponent⟩
  | count + 1 =>
    match nearestReadBack? interval numerator denominator exponent with
    | some x => x
    | none => shortestFrom interval numerator denominator (exponent - 1) count

/-- The decimal with the fewest digits that reads back as `mantissa * 2 ^ exponent`, for a
positive mantissa.  Seventeen digits always suffice. -/
def shortestDecimal (mantissa : Nat) (exponent : Int) : Decimal :=
  let numerator := scaledNumerator mantissa exponent
  let denominator := scaledDenominator exponent
  shortestFrom (.around mantissa exponent) numerator denominator
    (leadingExponent numerator denominator) 17

/-- A decimal in positional notation, without a power of ten and without zeros at the end
of its decimals. -/
def Decimal.positional (x : Decimal) : List Char :=
  if 0 ≤ x.exponent then digits (x.significand * Nat.pow 10 x.exponent.toNat)
  else
    let places := (-x.exponent).toNat
    let whole := digits (x.significand / Nat.pow 10 places)
    let decimals := paddedDigits places (x.significand % Nat.pow 10 places)
    match (decimals.reverse.dropWhile (· == '0')).reverse with
    | [] => whole
    | kept => whole ++ '.' :: kept

/-- The text of a number: the shortest that reads back, in positional notation. -/
def numberText (x : Float) : String :=
  match Reading.ofFloat x with
  | .finite negative m e =>
    signText negative ++
      if m = 0 then "0" else String.ofList (shortestDecimal m e).positional
  | _ => unboundedText x

end Calculator
