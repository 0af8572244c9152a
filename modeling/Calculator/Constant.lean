import Calculator.Angle

/-!
# Constants

The eleven constants that expressions can name, in the order of their names.
-/

namespace Calculator

/-- The base of the natural logarithm. -/
def euler : Float := 2.718281828459045

/-- The golden ratio. -/
def goldenRatio : Float := 1.618033988749895

/-- The natural logarithm of two. -/
def lnTwo : Float := 0.6931471805599453

/-- The natural logarithm of ten. -/
def lnTen : Float := 2.302585092994046

/-- The named constants with their values, in ascending order of names. -/
def constants : List (String × Float) := [
  ("E", euler),
  ("FULL_CIRCLE", 6.283185307179586),
  ("LN10", lnTen),
  ("LN2", lnTwo),
  ("PHI", goldenRatio),
  ("PI", pi),
  ("RIGHT_ANGLE", pi / 2.0),
  ("SQRT2", 1.4142135623730951),
  ("SQRT3", 1.7320508075688772),
  ("STRAIGHT_ANGLE", pi),
  ("TAU", 6.283185307179586)]

/-- The value of the constant with a given name, in a table that is the one of the eleven
constants unless another is given; the case of the name does not matter. -/
def constant? (name : String) (table : List (String × Float) := constants) : Option Float :=
  table.lookup (Text.uppercase name)

end Calculator
