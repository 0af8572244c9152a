import Calculator.Expr.Basic
import Calculator.Text.Case
import Calculator.Token.Cursor
import Calculator.Token.Lexer

/-!
# From tokens to expressions

The grammar is

    expression := term (('+' | '-') term)*
    term       := factor (('*' | '/' | '%') factor)*
    factor     := unary ('^' unary)*
    unary      := '-' unary | '+' unary | function primary | primary
    primary    := number | identifier | '(' expression ')'

where every sequence of operands is folded to the left.

Reading goes through the tokens once.  A `Position` is what was read so far: the
unfinished nodes from the innermost outward, and the operand just finished, unless one
is due.  `Position.step` takes one token to the next position, or refuses it;
`Position.finish` closes all nodes at the end of the input.  Reading stops on the token
that it refuses, and a later reading goes on from there.
-/

namespace Calculator

/-- A node whose last operand is not finished. -/
inductive Frame where
  /-- An open parenthesis. -/
  | group
  | negate
  /-- A function before its operand. -/
  | apply (function : UnaryOp)
  /-- An operator after its left operand. -/
  | after (left : Expr) (op : Operator)
deriving DecidableEq

namespace Frame

/-- The operand with the signs and functions before it, and the frames outside them. -/
def absorb : List Frame → Expr → List Frame × Expr
  | .negate :: frames, operand => absorb frames (.unary .negate operand)
  | .apply function :: frames, operand => absorb frames (.unary function operand)
  | frames, operand => (frames, operand)

/-- The operand with the operations before it that bind at least as strongly as a given
level, and the frames outside them. -/
def fold (level : Nat) : List Frame → Expr → List Frame × Expr
  | .after left op :: frames, right =>
    if level ≤ op.level then fold level frames (.binary left (.operator op) right)
    else (.after left op :: frames, right)
  | frames, operand => (frames, operand)

end Frame

/-- What was read of an expression. -/
structure Position where
  /-- The unfinished nodes, the innermost first. -/
  frames : List Frame
  /-- The operand just finished; `none` where one is due. -/
  operand : Option Expr
deriving DecidableEq

namespace Position

/-- Before the first token. -/
def start : Position :=
  ⟨[], none⟩

/-- After an operand that is a primary. -/
def primary (frames : List Frame) (operand : Expr) : Position :=
  let (frames, operand) := Frame.absorb frames operand
  ⟨frames, some operand⟩

/-- Whether only a primary may follow, as after the name of a function. -/
def primaryDue : List Frame → Bool
  | .apply _ :: _ => true
  | _ => false

/-- The position after a token where an operand is due. -/
def beginOperand (frames : List Frame) (token : Token) : Except Error Position :=
  match token with
  | .number value => .ok (primary frames (.number value))
  | .leftParen => .ok ⟨.group :: frames, none⟩
  | .identifier name =>
    match if primaryDue frames then none else UnaryOp.ofName? name with
    | some function => .ok ⟨.apply function :: frames, none⟩
    | none => .ok (primary frames (.variable (Text.uppercase name)))
  | .operator symbol =>
    if primaryDue frames then .error (.operandExpected token)
    else if symbol = '-' then .ok ⟨.negate :: frames, none⟩
    else if symbol = '+' then .ok ⟨frames, none⟩
    else .error (.operandExpected token)
  | _ => .error (.operandExpected token)

/-- The error for a token, other than an operator, after an operand: inside a group it
stands where the group should close. -/
def refusal (outside : List Frame) (found : Token) : Error :=
  if Frame.group ∈ outside then .groupUnclosed found else .leftover found

/-- The position after a token that follows an operand. -/
def continueOperand (frames : List Frame) (operand : Expr) (token : Token) :
    Except Error Position :=
  match token with
  | .operator symbol =>
    match Operator.ofSymbol? symbol with
    | some op =>
      let (frames, left) := Frame.fold op.level frames operand
      .ok ⟨.after left op :: frames, none⟩
    | none => .error (refusal frames token)
  | .rightParen =>
    match Frame.fold 0 frames operand with
    | (.group :: frames, operand) => .ok (primary frames operand)
    | _ => .error (refusal frames token)
  | _ => .error (refusal frames token)

/-- The position after one more token, or the error for it. -/
def step (position : Position) (token : Token) : Except Error Position :=
  match position.operand with
  | none => beginOperand position.frames token
  | some operand => continueOperand position.frames operand token

/-- The expression that ends at a position, or the error for the end of the input. -/
def finish (position : Position) : Except Error Expr :=
  match position.operand with
  | none => .error (.operandExpected .endOfInput)
  | some operand =>
    match Frame.fold 0 position.frames operand with
    | ([], expression) => .ok expression
    | _ => .error (refusal position.frames .endOfInput)

/-- Reads tokens up to the end of the input, or to a token that is refused.  Answers also
the tokens from there on. -/
def run (position : Position) : List Token → Except Error Expr × List Token
  | [] => (position.finish, [])
  | token :: rest =>
    if token = .endOfInput then (position.finish, token :: rest)
    else
      match position.step token with
      | .ok next => next.run rest
      | .error error => (.error error, token :: rest)

end Position

namespace Cursor

/-- Reads one expression that should end where the input ends.  The cursor is left on the
token on which reading stopped. -/
def parse (cursor : Cursor) : Except Error Expr × Cursor :=
  let (answer, rest) := Position.start.run cursor.tokens
  (answer, ⟨rest⟩)

/-- The answers of a number of readings, each of which goes on where the last stopped. -/
def parses (cursor : Cursor) : Nat → List (Except Error Expr)
  | 0 => []
  | count + 1 =>
    let (answer, cursor) := cursor.parse
    answer :: cursor.parses count

end Cursor

/-- The expression that a text spells. -/
def parse (text : String) : Except Error Expr :=
  if text.toList.all Text.isBlank then .error .emptyExpression
  else do
    let tokens ← tokenize text
    (Cursor.ofTokens tokens).parse.1

end Calculator
