import Calculator.Display.Recognition

/-!
# The display of a number

The text of its symbolic form, or a decimal: integers in full, sizes above a million and
below a ten-thousandth with a power of ten, anything else with ten significant digits.
-/

namespace Calculator

/-- The largest integer that is written in full. -/
def largestInteger : Int := Int.pow 2 63 - 1

/-- A number with six decimals after the leading digit and a power of ten of at least two
digits, whose sign is always written. -/
def scientificText (negative : Bool) (mantissa : Nat) (exponent : Int) : String :=
  let (digits, power) := exponentialParts 6 negative mantissa exponent
  digits ++ "e" ++ (if power < 0 then "-" else "+") ++
    String.ofList (paddedDigits 2 power.natAbs)

/-- A number in positional notation with a given number of significant digits, counted after
rounding. -/
def significantText (count : Nat) (x : Float) (negative : Bool) (mantissa : Nat)
    (exponent : Int) : String :=
  let (_, power) := exponentialParts (count - 1) negative mantissa exponent
  fixedText ((count - 1 : Nat) - power).toNat x

/-- A number as a decimal. -/
def decimalText (x : Float) : String :=
  match Reading.ofFloat x with
  | .nan => "NaN"
  | .infinite negative => signText negative ++ "Infinity"
  | .finite negative mantissa exponent =>
    if x.abs < tolerance then "0"
    else
      match whole? x with
      | some n => toString (min n largestInteger)
      | none =>
        if x.abs > 1e6 || x.abs < 1e-4 then scientificText negative mantissa exponent
        else significantText 10 x negative mantissa exponent

/-- The display of a number in an angle mode. -/
def display (mode : AngleMode) (x : Float) : String :=
  match recognise mode x with
  | some form => form.render
  | none => decimalText x

/-- What the angle that a number displays as is called. -/
def angleName? (mode : AngleMode) (x : Float) : Option String :=
  (recognise mode x).bind Form.angleName?

/-- The display of a number, with the name of the angle if it is a common one. -/
def annotatedDisplay (mode : AngleMode) (x : Float) : String :=
  match if isCommonAngle mode x then angleName? mode x else none with
  | some name => display mode x ++ " (" ++ name ++ ")"
  | none => display mode x

end Calculator
