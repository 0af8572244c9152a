import Calculator.Text.Case

/-!
# Angle modes

Angles are measured in radians or in degrees.  Inside the trigonometric functions they
are in radians, so a mode converts to radians and back.
-/

namespace Calculator

/-- The ratio of a circle's circumference to its diameter, in double precision. -/
def pi : Float := 3.141592653589793

/-- An angle in degrees as an angle in radians. -/
def degreesToRadians (angle : Float) : Float :=
  angle * pi / 180.0

/-- An angle in radians as an angle in degrees. -/
def radiansToDegrees (angle : Float) : Float :=
  angle * 180.0 / pi

/-- The unit in which angles are given and answered. -/
inductive AngleMode where
  | radians
  | degrees
deriving DecidableEq

namespace AngleMode

/-- An angle of this mode in radians. -/
def toRadians : AngleMode → Float → Float
  | .radians, angle => angle
  | .degrees, angle => degreesToRadians angle

/-- An angle in radians in this mode. -/
def ofRadians : AngleMode → Float → Float
  | .radians, angle => angle
  | .degrees, angle => radiansToDegrees angle

/-- The name that is shown for a mode. -/
def name : AngleMode → String
  | .radians => "radians"
  | .degrees => "degrees"

/-- The mode with a given long or short name, in any case. -/
def ofName? (text : String) : Option AngleMode :=
  match Text.lowercase text with
  | "rad" | "radians" => some .radians
  | "deg" | "degrees" => some .degrees
  | _ => none

end AngleMode

end Calculator
