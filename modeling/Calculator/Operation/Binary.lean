/-!
# Binary operations

Six operations are written between their operands, with a symbol and a level of binding
strength.  Eight more take their operands in parentheses after a name.
-/

namespace Calculator

/-- An operation written between its operands. -/
inductive Operator where
  | add
  | subtract
  | multiply
  | divide
  | modulo
  | power
deriving DecidableEq

namespace Operator

/-- The character that stands for an operator. -/
def symbol : Operator → Char
  | .add => '+'
  | .subtract => '-'
  | .multiply => '*'
  | .divide => '/'
  | .modulo => '%'
  | .power => '^'

/-- The operator that a character stands for. -/
def ofSymbol? : Char → Option Operator
  | '+' => some .add
  | '-' => some .subtract
  | '*' => some .multiply
  | '/' => some .divide
  | '%' => some .modulo
  | '^' => some .power
  | _ => none

/-- How strongly an operator binds: `1` is the loosest. -/
def level : Operator → Nat
  | .add | .subtract => 1
  | .multiply | .divide | .modulo => 2
  | .power => 3

/-- The symbol of an operator stands for that operator, and no other character does. -/
theorem ofSymbol?_eq_some_iff (c : Char) (op : Operator) :
  ofSymbol? c = some op ↔ c = op.symbol
  := by
  constructor
  · intro h
    unfold ofSymbol? at h
    split at h <;> cases h <;> rfl
  · rintro rfl
    cases op <;> rfl

end Operator

/-- An operation on two numbers. -/
inductive BinaryOp where
  | operator (op : Operator)
  | min
  | max
  | mean
  | gcd
  | lcm
  | and
  | shiftLeft
  | shiftRight
deriving DecidableEq

namespace BinaryOp

/-- The symbol or name of a binary operation. -/
def name : BinaryOp → String
  | .operator op => String.singleton op.symbol
  | .min => "min"
  | .max => "max"
  | .mean => "mean"
  | .gcd => "gcd"
  | .lcm => "lcm"
  | .and => "and"
  | .shiftLeft => "shl"
  | .shiftRight => "shr"

end BinaryOp

end Calculator
