import Calculator.Display.Form

/-!
# Recognising symbolic forms

A number is taken for a form when it differs from the value of the form by less than
`tolerance`.  Candidates are tried in a fixed order: known constants, angles of the mode,
fractions, square roots.
-/

namespace Calculator

/-- The difference below which two numbers count as equal for the display. -/
def tolerance : Float := 1e-10

/-- Whether two numbers differ by less than the tolerance. -/
def isNear (x y : Float) : Bool :=
  (x - y).abs < tolerance

/-- The first of some forms that a number is close to. -/
def closeForm? (forms : List Form) (x : Float) : Option Form :=
  forms.find? fun form => isNear x form.value

/-- The constants that are tried first. -/
def knownForms : List Form := [
  .piMultiple 1 1, .named "e" euler, .piMultiple 2 1, .piMultiple 1 2, .piMultiple 1 3,
  .piMultiple 1 4, .piMultiple 1 6, .root false 2, .root false 3, .root false 5,
  .named "φ" goldenRatio, .named "ln(2)" lnTwo, .named "ln(10)" lnTen,
  .fraction 1 1, .fraction 0 1, .fraction (-1) 1, .fraction 1 2, .fraction 1 4, .fraction 3 4,
  .fraction 1 3, .fraction 2 3]

/-- The common angles of a mode. -/
def commonAngles : AngleMode → List Form
  | .radians => [
    .piMultiple 0 1, .piMultiple 1 6, .piMultiple 1 4, .piMultiple 1 3, .piMultiple 1 2,
    .piMultiple 2 3, .piMultiple 3 4, .piMultiple 5 6, .piMultiple 1 1, .piMultiple 7 6,
    .piMultiple 5 4, .piMultiple 4 3, .piMultiple 3 2, .piMultiple 5 3, .piMultiple 7 4,
    .piMultiple 11 6, .piMultiple 2 1, .piMultiple (-1) 6, .piMultiple (-1) 4,
    .piMultiple (-1) 3, .piMultiple (-1) 2, .piMultiple (-2) 3, .piMultiple (-3) 4,
    .piMultiple (-5) 6, .piMultiple (-1) 1]
  | .degrees =>
    [0, 30, 45, 60, 90, 120, 135, 150, 180, 210, 225, 240, 270, 300, 315, 330, 360,
      -30, -45, -60, -90, -120, -135, -150, -180].map .degrees

/-- The integer that a number without a fractional part is, if its size is below `2 ^ 31`. -/
def boundedInteger? (x : Float) : Option Int :=
  if x.abs ≤ 2147483647.0 then whole? x else none

/-- The integer to which a number rounds, a half away from zero, if its size is below
`2 ^ 31`. -/
def nearestInteger? (x : Float) : Option Int :=
  boundedInteger? (Rounding.nearestAway.whole x)

/-- The whole multiple of π that a number is, judged by the multiple: its distance from the
integer next to it toward zero is below the tolerance. -/
def wholePiMultiple? (x : Float) : Option Form :=
  let multiple := x / pi
  let integer := Rounding.towardZero.whole multiple
  if isNear multiple integer then
    (boundedInteger? integer).map fun n => .piMultipleOf n 1
  else none

/-- The integer nearest to `scaled`, if the number is close to the form that has it as
numerator over a given denominator. -/
def nearestNumerator? (form : Int → Nat → Form) (x scaled : Float) (denominator : Nat) :
    Option Int :=
  (nearestInteger? scaled).filter fun numerator => isNear x (form numerator denominator).value

/-- The multiple of π with the least denominator from 2 to 12 that a number is close to. -/
def piFraction? (x : Float) : Option Form :=
  (List.range' 2 11).findSome? fun d =>
    (nearestNumerator? .piMultiple x (x * floatOfNat d / pi) d).map fun n => .piMultipleOf n d

/-- The fraction with the least denominator from 2 to 16 that a number is close to. -/
def fraction? (x : Float) : Option Form :=
  (List.range' 2 15).findSome? fun d =>
    (nearestNumerator? .fraction x (x * floatOfNat d) d).map fun n => .fractionOf n d

/-- The whole number of degrees that a number is close to. -/
def wholeDegrees? (x : Float) : Option Form :=
  ((nearestInteger? x).filter fun n => isNear x (Form.degrees n).value).map .degrees

/-- The square root of a number from 2 to 20, or its opposite, that a number is close to. -/
def root? (x : Float) : Option Form :=
  closeForm? ((List.range' 2 19).flatMap fun n => [.root false n, .root true n]) x

/-- The angle that a number is in a mode. -/
def angle? (mode : AngleMode) (x : Float) : Option Form :=
  closeForm? (commonAngles mode) x <|>
    match mode with
    | .radians => wholePiMultiple? x <|> piFraction? x
    | .degrees => wholeDegrees? x

/-- The symbolic form of a number in a mode, if it has one. -/
def recognise (mode : AngleMode) (x : Float) : Option Form :=
  closeForm? knownForms x <|> angle? mode x <|> fraction? x <|> root? x

/-- Whether a number is one of the common angles of a mode. -/
def isCommonAngle (mode : AngleMode) (x : Float) : Bool :=
  (closeForm? (commonAngles mode) x).isSome

end Calculator
