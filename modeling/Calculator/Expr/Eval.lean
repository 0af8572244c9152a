import Calculator.Constant
import Calculator.Error
import Calculator.Expr.Basic
import Calculator.Operation.Apply

/-!
# Evaluation

Operands are evaluated before their operation, the left one before the right one, and
the first error is the answer.
-/

namespace Calculator

namespace Expr

/-- The value of an expression in an angle mode, with the constants of a table. -/
def evaluate (mode : AngleMode) (expression : Expr)
    (table : List (String × Float) := constants) : Except Error Float :=
  match expression with
  | .number value => .ok value
  | .variable name =>
    match constant? name table with
    | some value => .ok value
    | none => .error (.undefined name)
  | .binary left op right => do
    let l ← left.evaluate mode table
    let r ← right.evaluate mode table
    (op.apply l r).mapError .domain
  | .unary op operand => do
    let x ← operand.evaluate mode table
    (op.apply mode x).mapError .domain

end Expr

end Calculator
