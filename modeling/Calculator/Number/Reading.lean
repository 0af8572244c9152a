/-!
# Readings of double-precision numbers

The arithmetic of the calculator is that of `Float`.  What needs exact integers, such
as rounding to a whole number or writing digits, goes through the reading of a
`Float`: nothing, an infinity, or a signed product `mantissa * 2 ^ exponent`.  A zero
is the finite reading with mantissa `0`, and keeps its sign.
-/

namespace Calculator

/-- What a double-precision number stands for. -/
inductive Reading where
  | nan
  | infinite (negative : Bool)
  | finite (negative : Bool) (mantissa : Nat) (exponent : Int)
deriving DecidableEq

namespace Reading

/-- The reading of a `Float`, from its sign bit, eleven exponent bits and
fifty-two fraction bits. -/
def ofFloat (x : Float) : Reading :=
  let bits := x.toBits.toNat
  let negative := decide (Nat.pow 2 63 ≤ bits)
  let biased : Nat := bits / Nat.pow 2 52 % Nat.pow 2 11
  let fraction : Nat := bits % Nat.pow 2 52
  if biased = 2047 then
    if fraction = 0 then .infinite negative else .nan
  else if biased = 0 then
    .finite negative fraction (-1074)
  else
    .finite negative (Nat.pow 2 52 + fraction) (biased - 1075)

end Reading

/-- The numerator of `mantissa * 2 ^ exponent` as a quotient of natural numbers. -/
def scaledNumerator (mantissa : Nat) (exponent : Int) : Nat :=
  mantissa * Nat.pow 2 exponent.toNat

/-- The denominator of `mantissa * 2 ^ exponent` as a quotient of natural numbers. -/
def scaledDenominator (exponent : Int) : Nat :=
  Nat.pow 2 (-exponent).toNat

/-- The `Float` with value `2 ^ exponent`, for an exponent from `-1074` to `1023`. -/
def powerOfTwo (exponent : Int) : Float :=
  if exponent < -1022 then
    Float.ofBits (UInt64.ofNat (Nat.pow 2 (exponent + 1074).toNat))
  else
    Float.ofBits (UInt64.ofNat ((exponent + 1023).toNat * Nat.pow 2 52))

/-- The `Float` nearest to a natural number below `2 ^ 64`. -/
def floatOfNat (n : Nat) : Float :=
  (UInt64.ofNat n).toFloat

/-- The `Float` nearest to an integer of size below `2 ^ 64`; zero is positive. -/
def floatOfInt (n : Int) : Float :=
  if n < 0 then -floatOfNat n.natAbs else floatOfNat n.natAbs

/-- The `Float` with the given sign and the value `mantissa * 2 ^ exponent`, for a
product that a `Float` can hold. -/
def floatOfScaled (negative : Bool) (mantissa : Nat) (exponent : Int) : Float :=
  let size := floatOfNat mantissa * powerOfTwo exponent
  if negative then -size else size

/-! ### Whole numbers -/

/-- The size up to which a number without a fractional part counts as whole. -/
def wholeLimit : Nat := Nat.pow 2 63

/-- The natural number `mantissa * 2 ^ exponent`, if the product is one. -/
def scaledNat? (mantissa : Nat) (exponent : Int) : Option Nat :=
  let numerator := scaledNumerator mantissa exponent
  let denominator := scaledDenominator exponent
  if numerator % denominator = 0 then some (numerator / denominator) else none

/-- The integer that a `Float` holds, if it has no fractional part and its size is at
most `wholeLimit`. -/
def whole? (x : Float) : Option Int :=
  match Reading.ofFloat x with
  | .finite negative mantissa exponent =>
    match scaledNat? mantissa exponent with
    | some n => if n ≤ wholeLimit then some (if negative then -n else n) else none
    | none => none
  | _ => none

end Calculator
