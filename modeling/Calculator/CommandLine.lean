import Calculator.Program

/-!
# Command line

The outer layer of the program: the arguments that it is started with, read as options.  What the
program does depends on the options alone (`Options.run`).
-/

namespace Calculator

namespace Options

/-- The options with degrees chosen; it can be chosen once. -/
def chooseDegrees? (options : Options) : Option Options :=
  if options.degrees then none else some { options with degrees := true }

/-- The options with an expression given; it can be given once. -/
def chooseExpression? (options : Options) (text : String) : Option Options :=
  match options.expression with
  | some _ => none
  | none => some { options with expression := some text }

/-- The value that is attached to a `-e` or `--eval` argument, if it is one. -/
def attachedValue? (argument : String) : Option String :=
  match argument.toList with
  | '-' :: '-' :: 'e' :: 'v' :: 'a' :: 'l' :: '=' :: value => some (String.ofList value)
  | '-' :: 'e' :: '=' :: value => some (String.ofList value)
  | '-' :: 'e' :: c :: value => some (String.ofList (c :: value))
  | _ => none

/-- Whether an argument can be the value of the one before it: a hyphen begins an option,
unless it stands alone. -/
def isValue (argument : String) : Bool :=
  argument == "-" || argument.toList.head? != some '-'

/-- The options after all arguments, or nothing when they cannot be understood. -/
def addArguments? (options : Options) : List String → Option Options
  | [] => some options
  | "--degrees" :: rest => (options.chooseDegrees?).bind (·.addArguments? rest)
  | [argument] => (attachedValue? argument).bind options.chooseExpression?
  | argument :: value :: rest =>
    if argument = "-e" ∨ argument = "--eval" then
      if isValue value then (options.chooseExpression? value).bind (·.addArguments? rest)
      else none
    else
      ((attachedValue? argument).bind options.chooseExpression?).bind
        (·.addArguments? (value :: rest))

/-- The options that arguments give. -/
def ofArguments? (arguments : List String) : Option Options :=
  addArguments? {} arguments

end Options

/-- The outcome of arguments that cannot be understood. -/
def Outcome.misuse : Outcome :=
  ⟨2, "", "usage: calculator [--degrees] [--eval EXPR]\n"⟩

/-- The outcome of the program for its arguments and its standard input. -/
def runProgram (arguments : List String) (input : String) : Outcome :=
  match Options.ofArguments? arguments with
  | none => .misuse
  | some options => options.run input

end Calculator
