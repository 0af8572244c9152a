import Calculator.Number.Reading

/-!
# Rounding

A rounding direction picks one of the two natural numbers next to a quotient.  The
same five directions serve for rounding a `Float` to a whole number and for cutting
off decimals.  The remainder of two `Float`s is exact and needs no direction.
-/

namespace Calculator

/-- Where a value between two neighbouring integers goes. -/
inductive Rounding where
  /-- The neighbour nearer to zero. -/
  | towardZero
  /-- The smaller neighbour. -/
  | down
  /-- The larger neighbour. -/
  | up
  /-- The nearer neighbour; a tie goes away from zero. -/
  | nearestAway
  /-- The nearer neighbour; a tie goes to the even one. -/
  | nearestEven
deriving DecidableEq

namespace Rounding

/-- Whether `quotient + remainder / divisor` with the given sign goes to the neighbour
of larger size. -/
def carries (direction : Rounding) (negative : Bool) (quotient remainder divisor : Nat) :
    Bool :=
  match direction with
  | .towardZero => false
  | .down => negative && decide (0 < remainder)
  | .up => !negative && decide (0 < remainder)
  | .nearestAway => decide (divisor ≤ 2 * remainder)
  | .nearestEven =>
    decide (divisor < 2 * remainder) || (decide (divisor = 2 * remainder) && quotient % 2 == 1)

/-- The size of the integer that `numerator / divisor` with the given sign goes to. -/
def quotient (direction : Rounding) (negative : Bool) (numerator divisor : Nat) : Nat :=
  let whole := numerator / divisor
  if direction.carries negative whole (numerator % divisor) divisor then whole + 1 else whole

/-- The whole number that a `Float` goes to.  The sign stays, also that of a zero; what
has no fractional part stays as it is. -/
def whole (direction : Rounding) (x : Float) : Float :=
  match Reading.ofFloat x with
  | .finite negative mantissa exponent =>
    if 0 ≤ exponent then x
    else
      floatOfScaled negative
        (direction.quotient negative mantissa (scaledDenominator exponent)) 0
  | _ => x

end Rounding

/-- The remainder of `x` divided by `y` toward zero: it has the sign of `x`, is smaller
than `y` in size, and is exact. -/
def remainder (x y : Float) : Float :=
  match Reading.ofFloat x, Reading.ofFloat y with
  | .finite negative m e, .finite _ m' e' =>
    if m' = 0 then 0.0 / 0.0
    else
      let least := min e e'
      floatOfScaled negative
        ((m * Nat.pow 2 (e - least).toNat) % (m' * Nat.pow 2 (e' - least).toNat)) least
  | .finite .., .infinite _ => x
  | _, _ => 0.0 / 0.0

end Calculator
