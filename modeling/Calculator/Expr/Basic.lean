import Calculator.Number.Shortest
import Calculator.Operation.Binary
import Calculator.Operation.Unary

/-!
# Expressions

Expression trees, and their fully parenthesized text.
-/

namespace Calculator

/-- An expression. -/
inductive Expr where
  | number (value : Float)
  /-- A reference to a constant; what is read from text has its name in upper case. -/
  | variable (name : String)
  | binary (left : Expr) (op : BinaryOp) (right : Expr)
  | unary (op : UnaryOp) (operand : Expr)
deriving DecidableEq

namespace Expr

/-- The text of an expression.  Operators stand between their operands in parentheses,
other operations before theirs. -/
def render : Expr → String
  | .number value => numberText value
  | .variable name => name
  | .binary left (.operator op) right =>
    "(" ++ left.render ++ " " ++ String.singleton op.symbol ++ " " ++ right.render ++ ")"
  | .binary left op right => op.name ++ "(" ++ left.render ++ ", " ++ right.render ++ ")"
  | .unary .negate operand => "(-" ++ operand.render ++ ")"
  | .unary op operand => op.name ++ "(" ++ operand.render ++ ")"

end Expr

end Calculator
