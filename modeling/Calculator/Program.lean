import Calculator.Interactive

/-!
# The program

The options choose the angle mode to start in, and whether one expression is evaluated
or lines are read from the standard input.  How options are written as arguments does not
matter to what the program does with them.
-/

namespace Calculator

/-- What the program is asked for. -/
structure Options where
  /-- Whether to start in degrees. -/
  degrees : Bool := false
  /-- A single expression to evaluate. -/
  expression : Option String := none
deriving DecidableEq

/-- The evaluator to start with. -/
def Options.evaluator (options : Options) : Evaluator :=
  { mode := if options.degrees then .degrees else .radians }

/-- The outcome of a run of the program. -/
structure Outcome where
  /-- The exit code. -/
  code : UInt32
  /-- What is written to the standard output. -/
  output : String
  /-- What is written to the standard error. -/
  errors : String
deriving DecidableEq

/-- The outcome of the evaluation of a single expression. -/
def Outcome.ofExpression (evaluator : Evaluator) (text : String) : Outcome :=
  match evaluator.calculate text with
  | .ok shown => ⟨0, shown ++ "\n", ""⟩
  | .error error => ⟨1, "", error.report ++ "\n"⟩

/-- The outcome of the program for its options and its standard input. -/
def Options.run (options : Options) (input : String) : Outcome :=
  match options.expression with
  | some text => .ofExpression options.evaluator text
  | none => ⟨0, options.evaluator.transcript (linesOf input), ""⟩

end Calculator
