import Calculator.CommandLine

/-!
# The program

Reads arguments and lines, and writes what the library answers.
-/

namespace Calculator

/-- Writes a text at once. -/
def writeOut (text : String) : IO Unit := do
  let out ← IO.getStdout
  out.putStr text
  out.flush

/-- Reads lines and answers them until the input or the run ends. -/
partial def interact (evaluator : Evaluator) : IO Unit := do
  writeOut prompt
  let line ← (← IO.getStdin).getLine
  if line.isEmpty then return
  match evaluator.respond line with
  | none => return
  | some (answer, evaluator) =>
    writeOut answer
    interact evaluator

end Calculator

open Calculator in
/-- Evaluates the expression that the arguments give, or reads lines. -/
def main (arguments : List String) : IO UInt32 := do
  match Options.ofArguments? arguments with
  | some options@{ expression := none, .. } =>
    interact options.evaluator
    return 0
  | _ =>
    let outcome := runProgram arguments ""
    writeOut outcome.output
    (← IO.getStderr).putStr outcome.errors
    return outcome.code
