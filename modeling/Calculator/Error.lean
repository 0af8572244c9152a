import Calculator.Operation.DomainError
import Calculator.Token.Basic

/-!
# Errors

Everything that can keep an expression from having a value, with the wording that is
shown for it.  A lexical error carries the byte offset of the offence in the text, a
syntax error the token on which the reader stood.
-/

namespace Calculator

/-- Broad categories of errors. -/
inductive ErrorKind where
  | lexical
  | syntactic
  | mathDomain
  | unknownIdentifier
deriving DecidableEq

/-- Why an expression has no value. -/
inductive Error where
  /-- A character that can start no token. -/
  | unexpectedCharacter (character : Char) (offset : Nat)
  /-- A number without digits. -/
  | invalidNumber (literal : String) (offset : Nat)
  | emptyExpression
  /-- A token where an operand should begin. -/
  | operandExpected (found : Token)
  /-- A token, other than an operator, after an operand in an open group. -/
  | groupUnclosed (found : Token)
  /-- A token, other than an operator, after an operand outside all groups. -/
  | leftover (found : Token)
  | domain (cause : DomainError)
  | undefined (name : String)
deriving DecidableEq

namespace Error

/-- The category of an error. -/
def kind : Error → ErrorKind
  | .unexpectedCharacter .. | .invalidNumber .. => .lexical
  | .emptyExpression | .operandExpected _ | .groupUnclosed _ | .leftover _ => .syntactic
  | .domain _ => .mathDomain
  | .undefined _ => .unknownIdentifier

/-- What is shown for an error. -/
def message : Error → String
  | .unexpectedCharacter character offset =>
    "unexpected character, '" ++ String.singleton character ++ "', at position " ++
      toString offset
  | .invalidNumber literal offset =>
    "'" ++ literal ++ "' at position " ++ toString offset ++ " is not a valid number"
  | .emptyExpression => "empty expression"
  | .operandExpected found =>
    "expected number, identifier, or '(', found " ++ found.describe
  | .groupUnclosed found => "expected ')' to close the group, found " ++ found.describe
  | .leftover found => "did not expect " ++ found.describe ++ " after the expression"
  | .domain cause => cause.message
  | .undefined name => "identifier, '" ++ name ++ "', is not defined"

end Error

end Calculator
