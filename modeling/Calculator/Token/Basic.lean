import Calculator.Number.Shortest

/-!
# Tokens

The units of which a written expression consists.  The end of the input is a token too:
it stands where a reader finds nothing more.
-/

namespace Calculator

/-- A unit of a written expression. -/
inductive Token where
  | number (value : Float)
  | identifier (name : String)
  | operator (symbol : Char)
  | leftParen
  | rightParen
  | endOfInput
deriving DecidableEq

namespace Token

/-- How a message cites a token. -/
def describe : Token → String
  | .number value => "'" ++ numberText value ++ "'"
  | .identifier name => "'" ++ name ++ "'"
  | .operator symbol => "'" ++ String.singleton symbol ++ "'"
  | .leftParen => "'('"
  | .rightParen => "')'"
  | .endOfInput => "end of input"

end Token

end Calculator
