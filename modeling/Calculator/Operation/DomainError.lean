import Calculator.Operation.Binary

/-!
# Domain errors

Why an operation has no value at its operands.
-/

namespace Calculator

/-- The cause for which an operation has no value. -/
inductive DomainError where
  | divisionByZero
  | moduloByZero
  /-- An operation on natural numbers got a negative operand. -/
  | negativeOperand (op : BinaryOp)
  /-- An operation on natural numbers got an operand that is not whole. -/
  | fractionalOperand (op : BinaryOp)
  /-- A shift by as many bits as a word has, or more. -/
  | shiftTooLarge (amount : Nat)
  | rootOfNegative
  | lnOfNonPositive
  | log10OfNonPositive
  | log2OfNonPositive
  | log1pOutsideDomain
  | acoshOutsideDomain
  | atanhOutsideDomain
  | acothOfZero
  | asechOutsideDomain
  | acschOfZero
  | factorialOfNonNatural
  | factorsOfNonPositive
deriving DecidableEq

namespace DomainError

/-- What is shown for a domain error. -/
def message : DomainError → String
  | .divisionByZero => "Division by zero"
  | .moduloByZero => "Modulo by zero"
  | .negativeOperand op => op.name ++ " is not defined for negative numbers"
  | .fractionalOperand op => op.name ++ " is only defined for integers"
  | .shiftTooLarge amount => "Shift amount " ++ toString amount ++ " is too large"
  | .rootOfNegative => "Square root of negative number"
  | .lnOfNonPositive => "Natural log of non-positive number"
  | .log10OfNonPositive => "Log10 of non-positive number"
  | .log2OfNonPositive => "Log2 of non-positive number"
  | .log1pOutsideDomain => "Logarithm of (1 + x) is undefined for x <= -1"
  | .acoshOutsideDomain => "Acosh is only defined for x >= 1"
  | .atanhOutsideDomain => "Atanh is only defined for -1 < x < 1"
  | .acothOfZero => "Acoth is undefined for zero"
  | .asechOutsideDomain => "Asech is only defined for 0 < x <= 1"
  | .acschOfZero => "Acsch is undefined for zero"
  | .factorialOfNonNatural => "Factorial of negative or non-integer number"
  | .factorsOfNonPositive => "Factors are only defined for positive integers"

end DomainError

end Calculator
