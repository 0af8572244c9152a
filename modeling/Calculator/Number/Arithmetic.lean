import Calculator.Number.Reading

/-!
# Primes, divisors and factorials

Trial division up to the square root for primality and for the number of divisors, and
the product `1 * 2 * … * n` in double precision, which stops once it is infinite.  The
square root up to which a number is tried for primality is a rounded one; remainders of
whole numbers are exact.
-/

namespace Calculator

/-- Whether none of `divisor`, `divisor + 2`, `divisor + 4`, … up to `limit` divides `n`. -/
def noDivisorFrom (n limit divisor : Nat) : Bool :=
  if divisor ≤ limit then
    if n % divisor = 0 then false else noDivisorFrom n limit (divisor + 2)
  else true
termination_by limit + 1 - divisor

/-- Whether a number is prime. -/
def isPrime (x : Float) : Bool :=
  match whole? x with
  | none => false
  | some n =>
    if n < 2 then false
    else if n = 2 then true
    else if n % 2 = 0 then false
    else noDivisorFrom n.toNat x.sqrt.toUInt64.toNat 3

/-- The number of divisors of `n` that are at least `divisor`, and at most
`n / divisor`, added to `found`. -/
def countDivisorsFrom (n divisor found : Nat) : Nat :=
  if h : 0 < divisor ∧ divisor * divisor ≤ n then
    if n % divisor = 0 then
      countDivisorsFrom n (divisor + 1) (found + if divisor * divisor = n then 1 else 2)
    else countDivisorsFrom n (divisor + 1) found
  else found
termination_by n + 1 - divisor
decreasing_by
  all_goals
    have : divisor ≤ divisor * divisor := Nat.le_mul_self divisor
    omega

/-- The number of divisors of a positive natural number. -/
def countDivisors (n : Nat) : Nat :=
  countDivisorsFrom n 1 0

/-- The product of `product` and the `count` natural numbers after `last`, taken from the
left and cut short once it is infinite. -/
def productFrom (product : Float) (last : Nat) : Nat → Float
  | 0 => product
  | count + 1 =>
    let next := product * (UInt64.ofNat (last + 1)).toFloat
    if next.isInf then next else productFrom next (last + 1) count

/-- The factorial of `n` in double precision. -/
def factorial (n : Nat) : Float :=
  productFrom 1.0 1 (n - 1)

end Calculator
