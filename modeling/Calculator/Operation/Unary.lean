import Calculator.Text.Case

/-!
# Unary operations

Negation, and the functions that expressions apply by name.  The six ratios of
trigonometry occur four times: for angles, inverse, for the hyperbola, and inverse for
the hyperbola.
-/

namespace Calculator

/-- The six ratios of trigonometry. -/
inductive Ratio where
  | sin
  | cos
  | tan
  | cot
  | sec
  | csc
deriving DecidableEq

namespace Ratio

/-- All ratios. -/
def all : List Ratio :=
  [.sin, .cos, .tan, .cot, .sec, .csc]

/-- The abbreviation of a ratio. -/
def name : Ratio → String
  | .sin => "sin"
  | .cos => "cos"
  | .tan => "tan"
  | .cot => "cot"
  | .sec => "sec"
  | .csc => "csc"

end Ratio

/-- An operation on one number. -/
inductive UnaryOp where
  | negate
  | not
  /-- A ratio of an angle. -/
  | circular (ratio : Ratio)
  /-- The angle that has a given ratio. -/
  | arc (ratio : Ratio)
  /-- A hyperbolic ratio. -/
  | hyperbolic (ratio : Ratio)
  /-- The inverse of a hyperbolic ratio. -/
  | area (ratio : Ratio)
  | sqrt
  | abs
  | sign
  | floor
  | ceil
  | round
  | ln
  | log10
  | log2
  | exp
  /-- The natural logarithm of one plus the operand. -/
  | log1p
  | factorial
  | isPrime
  | isEven
  | isOdd
  /-- The number of divisors. -/
  | factors
  /-- Degrees to radians. -/
  | rads
  /-- Radians to degrees. -/
  | degs
deriving DecidableEq

namespace UnaryOp

/-- The name that is shown for an operation. -/
def name : UnaryOp → String
  | .negate => "-"
  | .not => "not"
  | .circular r => r.name
  | .arc r => "arc" ++ r.name
  | .hyperbolic r => r.name ++ "h"
  | .area r => "a" ++ r.name ++ "h"
  | .sqrt => "sqrt"
  | .abs => "abs"
  | .sign => "sign"
  | .floor => "floor"
  | .ceil => "ceil"
  | .round => "round"
  | .ln => "ln"
  | .log10 => "log10"
  | .log2 => "log2"
  | .exp => "exp"
  | .log1p => "log1p"
  | .factorial => "fact"
  | .isPrime => "isprime"
  | .isEven => "iseven"
  | .isOdd => "isodd"
  | .factors => "factors"
  | .rads => "rads"
  | .degs => "degs"

/-- All operations that expressions apply by name: every operation but negation. -/
def functions : List UnaryOp :=
  Ratio.all.map .circular ++ Ratio.all.map .arc ++ Ratio.all.map .hyperbolic ++
    Ratio.all.map .area ++
    [.not, .sqrt, .abs, .sign, .floor, .ceil, .round, .ln, .log10, .log2, .exp, .log1p,
      .factorial, .isPrime, .isEven, .isOdd, .factors, .rads, .degs]

/-- A second name of an operation: `asin` for `arcsin`, and so on, and `factorial`. -/
def alias? : UnaryOp → Option String
  | .arc r => some ("a" ++ r.name)
  | .factorial => some "factorial"
  | _ => none

/-- The names under which functions are applied. -/
def functionNames : List (String × UnaryOp) :=
  functions.map (fun op => (op.name, op)) ++
    functions.filterMap fun op => op.alias?.map fun text => (text, op)

/-- The function with a given name, in any case. -/
def ofName? (text : String) : Option UnaryOp :=
  functionNames.lookup (Text.lowercase text)

end UnaryOp

end Calculator
