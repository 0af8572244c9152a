import Calculator.Display.Text
import Calculator.Evaluator

/-!
# Interactive lines

A line is a command or an expression.  Commands ask for or set the angle mode, list the
constants, or end the run; an expression is answered with the display of its value or
with its error.  A prompt is written before each line is read.
-/

namespace Calculator

/-- What is written before a line is read. -/
def prompt : String := "> "

/-- The heading of an error message. -/
def ErrorKind.heading : ErrorKind → String
  | .lexical | .syntactic => "Parse error"
  | .mathDomain => "Math error"
  | .unknownIdentifier => "Error"

/-- An error as it is reported. -/
def Error.report (error : Error) : String :=
  error.kind.heading ++ ": " ++ error.message

/-- The annotated display of the value of a text. -/
def Evaluator.calculate (evaluator : Evaluator) (text : String) : Except Error String :=
  (evaluator.evaluateText text).map (annotatedDisplay evaluator.mode)

/-- What a line asks for. -/
inductive Command where
  | nothing
  | quit
  | showMode
  | setMode (mode : AngleMode)
  | listConstants
  | calculate (text : String)

namespace Command

/-- The command that a line gives; blanks around it and its case do not matter. -/
def ofLine (line : String) : Command :=
  let text := Text.trim line
  match Text.lowercase text with
  | "" => .nothing
  | "quit" | "exit" | "q" => .quit
  | "mode" => .showMode
  | "degrees" | "deg" => .setMode .degrees
  | "radians" | "rad" => .setMode .radians
  | "constants" => .listConstants
  | _ => .calculate text

end Command

namespace Evaluator

/-- How the angle mode is shown. -/
def modeLine (mode : AngleMode) : String :=
  "angle mode: " ++ mode.name ++ "\n"

/-- A text with blanks after it up to a given count of characters. -/
def padRight (count : Nat) (text : String) : String :=
  text ++ String.ofList (List.replicate (count - text.length) ' ')

/-- How a constant is listed. -/
def constantLine (mode : AngleMode) (name : String) (value : Float) : String :=
  "  " ++ padRight 15 name ++ " " ++ display mode value ++ "\n"

/-- The answer to an expression. -/
def answerLine (evaluator : Evaluator) (text : String) : String :=
  match evaluator.calculate text with
  | .ok shown => "  = " ++ shown ++ "\n"
  | .error error => error.report ++ "\n"

/-- What is written in answer to a line, and the evaluator after it; nothing when the line
ends the run. -/
def respond (evaluator : Evaluator) (line : String) : Option (String × Evaluator) :=
  match Command.ofLine line with
  | .nothing => some ("", evaluator)
  | .quit => none
  | .showMode => some (modeLine evaluator.mode, evaluator)
  | .setMode mode => some (modeLine mode, { evaluator with mode })
  | .listConstants =>
    some (String.join (evaluator.constants.map fun (name, value) =>
      constantLine evaluator.mode name value), evaluator)
  | .calculate text => some (evaluator.answerLine text, evaluator)

/-- All that is written while a list of lines is read. -/
def transcript (evaluator : Evaluator) : List String → String
  | [] => prompt
  | line :: lines =>
    match evaluator.respond line with
    | none => prompt
    | some (answer, evaluator) => prompt ++ answer ++ evaluator.transcript lines

end Evaluator

/-- The characters of each line. -/
def splitLines : List Char → List (List Char)
  | [] => []
  | c :: cs =>
    if c = '\n' then [] :: splitLines cs
    else
      match splitLines cs with
      | [] => [[c]]
      | line :: lines => (c :: line) :: lines

/-- The lines of a text; the last one need not be ended. -/
def linesOf (text : String) : List String :=
  (splitLines text.toList).map String.ofList

end Calculator
