import Calculator.Main
import Calculator.Proofs.Expr.Acceptance
import Calculator.Proofs.Expr.Degrees
import Calculator.Proofs.Text.Case
import Calculator.Proofs.Expr.Variables
import Calculator.Proofs.Number.Bits
import Calculator.Proofs.Number.Nearest
import Calculator.Proofs.Number.Scientific
import Calculator.Proofs.Number.ReadBack
import Calculator.Proofs.Number.Size
import Calculator.Proofs.Number.Numeral
import Calculator.Proofs.Expr.Printing
import Calculator.Proofs.Token.LexicalGrammar
import Calculator.Proofs.Expr.Refusal
import Calculator.Proofs.Display.Tolerance
import Calculator.Proofs.Program.Dialogue
import Calculator.Proofs.Program.Sessions
import Calculator.Proofs.Token.Lowercase
import Calculator.Proofs.Expr.Lowercase
import Calculator.Proofs.Token.Whitespace
import Calculator.Proofs.Token.Bytes
import Calculator.Proofs.Token.Scanning
import Calculator.Proofs.Expr.Concatenation
import Calculator.Proofs.Expr.Repetition
import Calculator.Proofs.Expr.Strictness
import Calculator.Proofs.Program.SingleExpression
import Calculator.Proofs.Number.SquareRoot
import Calculator.Proofs.Operation.Primality
import Calculator.Proofs.Number.Value
import Calculator.Proofs.Number.Word
import Calculator.Proofs.Operation.Integrality
import Calculator.Proofs.Operation.Divisors
import Calculator.Proofs.Operation.CommonDivisors
import Calculator.Proofs.Operation.Shifts
import Calculator.Proofs.Number.Rounded
import Calculator.Proofs.Number.Order
import Calculator.Proofs.Number.Monotone
import Calculator.Proofs.Operation.Factorials
import Calculator.Proofs.Number.Overflow
import Calculator.Proofs.Operation.Mean
import Calculator.Proofs.Display.Nearness
import Calculator.Proofs.Display.Candidates
import Calculator.Proofs.Display.Fractions
import Calculator.Proofs.Display.Angles
import Calculator.Proofs.Display.Letters
import Calculator.Proofs.Display.Forms
import Calculator.Proofs.Display.Multiples
import Calculator.Proofs.Display.WholeDegrees
import Calculator.Proofs.Display.Decimals
import Calculator.Proofs.Display.Integers
import Calculator.Proofs.Display.AngleNames
