import Calculator.Token.Basic

/-!
# Cursors

A cursor stands on one token of a list and moves forward.  It holds the tokens from
there on; where they are used up, it stands on the end of the input and stays there.
-/

namespace Calculator

/-- A place in a list of tokens. -/
structure Cursor where
  /-- The current token and those after it. -/
  tokens : List Token
deriving DecidableEq

namespace Cursor

/-- The cursor on the first token of a list.  An end of the input that closes the list
adds nothing to it. -/
def ofTokens (tokens : List Token) : Cursor :=
  ⟨if tokens.getLast? = some .endOfInput then tokens.dropLast else tokens⟩

/-- The token on which a cursor stands. -/
def current (cursor : Cursor) : Token :=
  cursor.tokens.headD .endOfInput

/-- The cursor one token further. -/
def advance (cursor : Cursor) : Cursor :=
  ⟨cursor.tokens.tail⟩

/-- Whether a cursor stands on the end of the input. -/
def atEnd (cursor : Cursor) : Bool :=
  cursor.current == .endOfInput

end Cursor

end Calculator
