import Calculator.Evaluator
import Mathlib.Tactic.Use

/-!
# Degrees by way of radians

An expression in degrees has the value of another expression in radians, in which the
operands of the circular ratios are converted to radians and the results of the inverse
ratios to degrees.

* `Expr.inRadians` is the other expression.
* `UnaryOp.evaluate_inRadians` says of each operation that it has the value in degrees
  that its translation has in radians.
* `Evaluator.evaluate_degrees`: both expressions have the same value, or the same error;
  an expression without circular and inverse ratios does not depend on the mode.
-/

namespace Calculator

namespace UnaryOp

/-- Whether an operation takes an angle or answers one. -/
def isAngular : UnaryOp → Bool
  | .circular _ | .arc _ => true
  | _ => false

/-- An operation in degrees, written for radians. -/
def inRadians (op : UnaryOp) (operand : Expr) : Expr :=
  match op with
  | .circular ratio => .unary (.circular ratio) (.unary .rads operand)
  | .arc ratio => .unary .degs (.unary (.arc ratio) operand)
  | op => .unary op operand

/-- An operation without angles is the same in every mode. -/
theorem apply_of_not_isAngular {op : UnaryOp} (h : op.isAngular = false) (mode mode' : AngleMode)
    (x : Float) :
  op.apply mode x = op.apply mode' x
  := by
  cases op with
  | circular | arc => cases h
  | _ => simp only [apply]

/-- An operation without angles is written as it is. -/
theorem inRadians_of_not_isAngular {op : UnaryOp} (h : op.isAngular = false) (operand : Expr) :
  op.inRadians operand = .unary op operand
  := by
  cases op with
  | circular | arc => cases h
  | _ => rfl

/-- A ratio of an angle in degrees is that of the angle in radians. -/
theorem apply_circular_degrees (ratio : Ratio) (x : Float) :
  (circular ratio).apply .degrees x = (circular ratio).apply .radians (degreesToRadians x)
  := by
  rw [apply, apply, AngleMode.toRadians, AngleMode.toRadians]

/-- The angle in degrees of a ratio is that in radians, converted. -/
theorem apply_arc_degrees (ratio : Ratio) (x : Float) :
  (arc ratio).apply .degrees x = ((arc ratio).apply .radians x).map radiansToDegrees
  := by
  rw [apply, apply, AngleMode.ofRadians, AngleMode.ofRadians, Except.map]

/-- An operation in degrees has the value in radians of what is written for it. -/
theorem evaluate_inRadians (op : UnaryOp) (operand : Expr) :
  (op.inRadians operand).evaluate .radians
    = operand.evaluate .radians >>= fun x => (op.apply .degrees x).mapError .domain
  := by
  cases h : op.isAngular with
  | false =>
    rw [inRadians_of_not_isAngular h, Expr.evaluate]
    apply bind_congr
    intro x
    rw [apply_of_not_isAngular h .radians .degrees]
  | true =>
    cases op with
    | circular ratio =>
      rw [inRadians, Expr.evaluate, Expr.evaluate, bind_assoc]
      apply bind_congr
      intro x
      rw [apply_circular_degrees]
      rfl
    | arc ratio =>
      rw [inRadians, Expr.evaluate, Expr.evaluate, bind_assoc]
      apply bind_congr
      intro x
      rw [apply_arc_degrees]
      cases (arc ratio).apply .radians x <;> rfl
    | _ => cases h

end UnaryOp

namespace Expr

/-- The expression whose value in radians is the value of an expression in degrees. -/
def inRadians : Expr → Expr
  | .number value => .number value
  | .variable name => .variable name
  | .binary left op right => .binary left.inRadians op right.inRadians
  | .unary op operand => op.inRadians operand.inRadians

/-- Whether an operation that takes an angle or answers one occurs in an expression. -/
def hasAngles : Expr → Bool
  | .number _ | .variable _ => false
  | .binary left _ right => left.hasAngles || right.hasAngles
  | .unary op operand => op.isAngular || operand.hasAngles

/-- An expression without angles is its own translation. -/
theorem inRadians_of_not_hasAngles :
  ∀ {e : Expr}, e.hasAngles = false → e.inRadians = e
  | .number _, _ | .variable _, _ => rfl
  | .binary left op right, h => by
      obtain ⟨hleft, hright⟩ := Bool.or_eq_false_iff.mp h
      rw [inRadians, inRadians_of_not_hasAngles hleft, inRadians_of_not_hasAngles hright]
  | .unary op operand, h => by
      obtain ⟨hop, hoperand⟩ := Bool.or_eq_false_iff.mp h
      rw [inRadians, inRadians_of_not_hasAngles hoperand, UnaryOp.inRadians_of_not_isAngular hop]

/-- An expression in degrees has the value of its translation in radians. -/
theorem evaluate_inRadians :
  ∀ e : Expr, e.inRadians.evaluate .radians = e.evaluate .degrees
  | .number _ | .variable _ => rfl
  | .binary left op right => by
      rw [inRadians, evaluate, evaluate_inRadians left, evaluate_inRadians right, evaluate]
  | .unary op operand => by
      rw [inRadians, UnaryOp.evaluate_inRadians, evaluate_inRadians operand, evaluate]

end Expr

namespace Evaluator

/-- Degree mode is radian mode on the translated expression, and an expression without
angles has the same value, or the same error, in both modes. -/
theorem evaluate_degrees :
  (∀ e : Expr, (Evaluator.mk .degrees).evaluate e = (Evaluator.mk .radians).evaluate e.inRadians) ∧
  ∀ e : Expr, e.hasAngles = false →
    (Evaluator.mk .degrees).evaluate e = (Evaluator.mk .radians).evaluate e
  := by
  constructor
  · intro e
    symm
    apply e.evaluate_inRadians
  · intro e h
    have he := e.evaluate_inRadians
    rw [Expr.inRadians_of_not_hasAngles h] at he
    symm
    apply he

/-- The square root of a sum is the same in both modes, and the cosine of an inverse sine
is that of the translated expression. -/
theorem evaluate_degrees_root :
  let root : Expr := .unary .sqrt (.binary (.number 9.0) (.operator .add) (.variable "PI"))
  let cosine : Expr := .unary (.circular .cos) (.unary (.arc .sin) (.number 0.5))
  root.hasAngles = false ∧
    (Evaluator.mk .degrees).evaluate root = (Evaluator.mk .radians).evaluate root ∧
    cosine.inRadians = .unary (.circular .cos)
      (.unary .rads (.unary .degs (.unary (.arc .sin) (.number 0.5)))) ∧
    (Evaluator.mk .degrees).evaluate cosine
      = (Evaluator.mk .radians).evaluate cosine.inRadians
  := by
  intro root cosine
  exact ⟨rfl, evaluate_degrees.2 root rfl, rfl, evaluate_degrees.1 cosine⟩

end Evaluator

end Calculator
