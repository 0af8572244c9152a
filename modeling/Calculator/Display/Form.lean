import Calculator.Constant
import Calculator.Number.Decimal

/-!
# Symbolic forms

The exact-looking texts that the display of a number prefers to decimals: multiples of
π, whole degrees, fractions, square roots of small numbers, and a few named constants.
A form has a text, and a value that a number is compared with.
-/

namespace Calculator

/-- A symbolic form. -/
inductive Form where
  /-- A constant with a text of its own. -/
  | named (text : String) (value : Float)
  /-- `numerator * π / denominator`. -/
  | piMultiple (numerator : Int) (denominator : Nat)
  | degrees (count : Int)
  | fraction (numerator : Int) (denominator : Nat)
  /-- The square root of `radicand`, or its opposite. -/
  | root (negative : Bool) (radicand : Nat)
deriving DecidableEq

namespace Form

/-- The value that a form stands for. -/
def value : Form → Float
  | .named _ value => value
  | .piMultiple numerator denominator => floatOfInt numerator * pi / floatOfNat denominator
  | .degrees count => floatOfInt count
  | .fraction numerator denominator => floatOfInt numerator / floatOfNat denominator
  | .root false radicand => (floatOfNat radicand).sqrt
  | .root true radicand => -(floatOfNat radicand).sqrt

/-- A fraction with a positive denominator, in lowest terms. -/
def lowest (numerator : Int) (denominator : Nat) : Int × Nat :=
  let divisor := numerator.natAbs.gcd denominator
  (numerator / divisor, denominator / divisor)

/-- The multiple of π that a fraction is, in lowest terms. -/
def piMultipleOf (numerator : Int) (denominator : Nat) : Form :=
  let (n, d) := lowest numerator denominator
  .piMultiple n d

/-- The fraction with a given numerator and denominator, in lowest terms. -/
def fractionOf (numerator : Int) (denominator : Nat) : Form :=
  let (n, d) := lowest numerator denominator
  .fraction n d

/-- A denominator in a text; one is left out. -/
def denominatorText (denominator : Nat) : String :=
  if denominator = 1 then "" else "/" ++ toString denominator

/-- The factor of π in a text; one is left out. -/
def factorText (factor : Int) : String :=
  if factor = 1 then "" else if factor = -1 then "-" else toString factor

/-- The text of a form. -/
def render : Form → String
  | .named text _ => text
  | .piMultiple numerator denominator =>
    if numerator = 0 then "0" else factorText numerator ++ "π" ++ denominatorText denominator
  | .degrees count => toString count ++ "°"
  | .fraction numerator denominator => toString numerator ++ denominatorText denominator
  | .root negative radicand => signText negative ++ "√" ++ toString radicand

/-- What an angle is called that is shown in a given form. -/
def angleName? : Form → Option String
  | .fraction 0 _ | .piMultiple 0 _ | .degrees 0 => some "zero angle"
  | .piMultiple 1 2 | .degrees 90 => some "right angle"
  | .piMultiple 1 1 | .degrees 180 => some "straight angle"
  | .piMultiple 2 1 | .degrees 360 => some "full circle"
  | .piMultiple 1 4 | .degrees 45 => some "half right angle"
  | .piMultiple 1 3 | .piMultiple 1 6 | .degrees 60 | .degrees 30 => some "acute angle"
  | _ => none

end Form

end Calculator
