import Calculator.Expr.Eval
import Calculator.Expr.Parser

/-!
# Evaluators

An evaluator is an angle mode and a table of constants, with which texts and trees are
evaluated.  A session is a list of evaluators on which actions are performed.
-/

namespace Calculator

/-- An evaluator; it starts in radians and with the eleven constants. -/
structure Evaluator where
  ofTable ::
  mode : AngleMode := .radians
  /-- The values of the names that expressions refer to. -/
  constants : List (String × Float) := Calculator.constants
deriving DecidableEq

namespace Evaluator

/-- The evaluator in a mode with the eleven constants. -/
def mk (mode : AngleMode) : Evaluator :=
  { mode }

/-- The value of a tree. -/
def evaluate (evaluator : Evaluator) (expression : Expr) : Except Error Float :=
  expression.evaluate evaluator.mode evaluator.constants

/-- The value of the expression that a text spells. -/
def evaluateText (evaluator : Evaluator) (text : String) : Except Error Float := do
  evaluator.evaluate (← parse text)

end Evaluator

/-- What can be done in a session; evaluators are addressed by their place in the list. -/
inductive Action where
  | new
  | newInMode (mode : AngleMode)
  | copy (source : Nat)
  /-- Sets the mode with a given name, if there is one. -/
  | setMode (target : Nat) (name : String)
  | evaluateText (target : Nat) (text : String)
  | evaluate (target : Nat) (expression : Expr)
  | constant (target : Nat) (name : String)

/-- What an action answers. -/
inductive Answer where
  /-- The place of an evaluator that was added. -/
  | created (place : Nat)
  /-- Whether a mode was set. -/
  | modeSet (done : Bool)
  | value (result : Except Error Float)
  | constant (value : Option Float)
  /-- There is no evaluator at the place. -/
  | missing

/-- Evaluators side by side. -/
abbrev Session := List Evaluator

namespace Session

/-- The session with one evaluator. -/
def initial : Session :=
  [{}]

/-- A session with one more evaluator. -/
def add (session : Session) (evaluator : Evaluator) : Answer × Session :=
  (.created session.length, session ++ [evaluator])

/-- The answer of the evaluator at a place. -/
def ask (session : Session) (target : Nat) (answer : Evaluator → Answer) : Answer :=
  match session[target]? with
  | some evaluator => answer evaluator
  | none => .missing

/-- The answer of an action and the session after it. -/
def perform (session : Session) : Action → Answer × Session
  | .new => session.add {}
  | .newInMode mode => session.add { mode }
  | .copy source =>
    match session[source]? with
    | some evaluator => session.add evaluator
    | none => (.missing, session)
  | .setMode target name =>
    match session[target]?, AngleMode.ofName? name with
    | none, _ => (.missing, session)
    | some _, none => (.modeSet false, session)
    | some evaluator, some mode => (.modeSet true, session.set target { evaluator with mode })
  | .evaluateText target text =>
    (session.ask target fun e => .value (e.evaluateText text), session)
  | .evaluate target expression =>
    (session.ask target fun e => .value (e.evaluate expression), session)
  | .constant target name =>
    (session.ask target fun e => .constant (constant? name e.constants), session)

end Session

end Calculator
