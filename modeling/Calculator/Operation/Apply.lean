import Calculator.Angle
import Calculator.Number.Arithmetic
import Calculator.Number.Rounding
import Calculator.Operation.DomainError
import Calculator.Operation.Unary

/-!
# Applying operations

The value of each operation at its operands, or the cause for which it has none.
Results that no check refuses are those of double-precision arithmetic, with its
infinities and its NaN.
-/

namespace Calculator

/-- `1.0` for a condition that holds and `0.0` for one that does not. -/
def indicator (condition : Bool) : Float :=
  if condition then 1.0 else 0.0

/-! ### Binary operations -/

/-- An operand as a natural number. -/
def requireNatural (op : BinaryOp) (x : Float) : Except DomainError Nat :=
  if x < 0.0 then .error (.negativeOperand op)
  else
    match whole? x with
    | some n => .ok n.toNat
    | none => .error (.fractionalOperand op)

/-- The number of bits in a word that shifts work on. -/
def wordBits : Nat := 64

/-- An operation on natural numbers at two operands, the left one checked first. -/
def onNaturals (op : BinaryOp) (left right : Float)
    (value : Nat → Nat → Except DomainError Float) : Except DomainError Float := do
  let a ← requireNatural op left
  let b ← requireNatural op right
  value a b

/-- The least common multiple of two numbers, multiplied out in double precision. -/
def leastCommonMultiple (a b : Nat) : Float :=
  if a = 0 ∨ b = 0 then 0.0 else floatOfNat (a / a.gcd b) * floatOfNat b

namespace BinaryOp

/-- The value of a binary operation. -/
def apply (op : BinaryOp) (left right : Float) : Except DomainError Float :=
  match op with
  | .operator .add => .ok (left + right)
  | .operator .subtract => .ok (left - right)
  | .operator .multiply => .ok (left * right)
  | .operator .divide => if right == 0.0 then .error .divisionByZero else .ok (left / right)
  | .operator .modulo =>
    if right == 0.0 then .error .moduloByZero else .ok (remainder left right)
  | .operator .power => .ok (left.pow right)
  | .min => .ok (if left.isNaN then right else if right < left then right else left)
  | .max => .ok (if left.isNaN then right else if left < right then right else left)
  | .mean => .ok ((left + right) / 2.0)
  | .gcd => onNaturals op left right fun a b => .ok (floatOfNat (a.gcd b))
  | .lcm => onNaturals op left right fun a b => .ok (leastCommonMultiple a b)
  | .and => .ok (indicator (left != 0.0 && right != 0.0))
  | .shiftLeft => onNaturals op left right fun a n =>
    if wordBits ≤ n then .error (.shiftTooLarge n)
    else .ok (floatOfNat (a * Nat.pow 2 n % Nat.pow 2 wordBits))
  | .shiftRight => onNaturals op left right fun a n =>
    if wordBits ≤ n then .error (.shiftTooLarge n) else .ok (floatOfNat (a / Nat.pow 2 n))

end BinaryOp

/-! ### Unary operations -/

/-- The natural logarithm of `1 + x`.  Where `1 + x` rounds to `1` it is `x`; near zero,
where `1 + x` would lose digits of `x`, it is twice the inverse hyperbolic tangent of
`x / (2 + x)`. -/
def logOnePlus (x : Float) : Float :=
  if 1.0 + x == 1.0 then x
  else if x.abs < 0.5 then 2.0 * (x / (2.0 + x)).atanh
  else (1.0 + x).log

/-- The inverse hyperbolic tangent: half the logarithm of `(1 + x) / (1 - x)`, taken as that
of one plus `2 * x / (1 - x)`.  Close to `-1` this term keeps few digits of its distance
from `-1`, so values there are less accurate than their opposites close to `1`. -/
def areaTangent (x : Float) : Float :=
  0.5 * logOnePlus (2.0 * x / (1.0 - x))

namespace Ratio

/-- A ratio of an angle in radians. -/
def circular (ratio : Ratio) (angle : Float) : Float :=
  match ratio with
  | .sin => angle.sin
  | .cos => angle.cos
  | .tan => angle.tan
  | .cot => 1.0 / angle.tan
  | .sec => 1.0 / angle.cos
  | .csc => 1.0 / angle.sin

/-- The angle in radians that has a given ratio. -/
def arc (ratio : Ratio) (x : Float) : Float :=
  match ratio with
  | .sin => x.asin
  | .cos => x.acos
  | .tan => x.atan
  | .cot => (1.0 / x).atan
  | .sec => (1.0 / x).acos
  | .csc => (1.0 / x).asin

/-- A hyperbolic ratio. -/
def hyperbolic (ratio : Ratio) (x : Float) : Float :=
  match ratio with
  | .sin => x.sinh
  | .cos => x.cosh
  | .tan => x.tanh
  | .cot => 1.0 / x.tanh
  | .sec => 1.0 / x.cosh
  | .csc => 1.0 / x.sinh

/-- The inverse of a hyperbolic ratio. -/
def area (ratio : Ratio) (x : Float) : Except DomainError Float :=
  match ratio with
  | .sin => .ok x.asinh
  | .cos => if x < 1.0 then .error .acoshOutsideDomain else .ok x.acosh
  | .tan => if x ≤ -1.0 ∨ x ≥ 1.0 then .error .atanhOutsideDomain else .ok (areaTangent x)
  | .cot => if x == 0.0 then .error .acothOfZero else .ok (areaTangent (1.0 / x))
  | .sec => if x ≤ 0.0 ∨ x > 1.0 then .error .asechOutsideDomain else .ok (1.0 / x).acosh
  | .csc => if x == 0.0 then .error .acschOfZero else .ok (1.0 / x).asinh

end Ratio

namespace UnaryOp

/-- The value of a unary operation in an angle mode. -/
def apply (op : UnaryOp) (mode : AngleMode) (x : Float) : Except DomainError Float :=
  match op with
  | .negate => .ok (-x)
  | .not => .ok (indicator (x == 0.0))
  | .circular ratio => .ok (ratio.circular (mode.toRadians x))
  | .arc ratio => .ok (mode.ofRadians (ratio.arc x))
  | .hyperbolic ratio => .ok (ratio.hyperbolic x)
  | .area ratio => ratio.area x
  | .sqrt => if x < 0.0 then .error .rootOfNegative else .ok x.sqrt
  | .abs => .ok x.abs
  | .sign => .ok (if x > 0.0 then 1.0 else if x < 0.0 then -1.0 else 0.0)
  | .floor => .ok (Rounding.down.whole x)
  | .ceil => .ok (Rounding.up.whole x)
  | .round => .ok (Rounding.nearestEven.whole x)
  | .ln => if x ≤ 0.0 then .error .lnOfNonPositive else .ok x.log
  | .log10 => if x ≤ 0.0 then .error .log10OfNonPositive else .ok x.log10
  | .log2 => if x ≤ 0.0 then .error .log2OfNonPositive else .ok x.log2
  | .exp => .ok x.exp
  | .log1p => if x ≤ -1.0 then .error .log1pOutsideDomain else .ok (logOnePlus x)
  | .factorial =>
    match whole? x with
    | some n => if n < 0 then .error .factorialOfNonNatural else .ok (Calculator.factorial n.toNat)
    | none => .error .factorialOfNonNatural
  | .isPrime => .ok (indicator (Calculator.isPrime x))
  | .isEven =>
    match whole? x with
    | some n => .ok (indicator (n % 2 == 0))
    | none => .ok 0.0
  | .isOdd =>
    match whole? x with
    | some n => .ok (indicator (n % 2 != 0))
    | none => .ok 0.0
  | .factors =>
    match whole? x with
    | some n =>
      if n < 1 then .error .factorsOfNonPositive
      else .ok (floatOfNat (countDivisors n.toNat))
    | none => .error .factorsOfNonPositive
  | .rads => .ok (degreesToRadians x)
  | .degs => .ok (radiansToDegrees x)

end UnaryOp

end Calculator
