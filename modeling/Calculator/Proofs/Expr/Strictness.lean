import Calculator.Evaluator
import Mathlib.Tactic.Use

/-!
# The first failure

An expression has a value exactly when each of its nodes does what it does on the values of its
operands without a failure.  Otherwise the error is that of the first node that fails, from left to
right and operands before their operation; no value of another operand hides it
(`evaluate_firstFailure`).

* `Expr.nodes`: the nodes of an expression in this order.
* `Expr.Answers`: what one node does, once its operands have values.  It is never more than one
  answer, and the one that evaluation gives (`Expr.Answers.evaluate_eq`).
* `Expr.FirstFailure`: the error at which a list of nodes, gone through from the left, fails.
-/

namespace Calculator

namespace Expr

/-- The nodes of an expression from left to right, each after those of its operands. -/
def nodes : Expr → List Expr
  | .number value => [.number value]
  | .variable name => [.variable name]
  | .binary left op right => left.nodes ++ right.nodes ++ [.binary left op right]
  | .unary op operand => operand.nodes ++ [.unary op operand]

variable {mode : AngleMode} {table : List (String × Float)}

/-! ### One node -/

/-- What a node answers by itself, in a mode and with a table of constants.  An operation answers on
the values of its operands, and not where one of them has none. -/
inductive Answers (mode : AngleMode) (table : List (String × Float)) :
    Expr → Except Error Float → Prop where
  | number (value : Float) : Answers mode table (.number value) (.ok value)
  | variable {name : String} {value : Float} :
      constant? name table = some value → Answers mode table (.variable name) (.ok value)
  | undefined {name : String} :
      constant? name table = none → Answers mode table (.variable name) (.error (.undefined name))
  | binary {left right : Expr} {op : BinaryOp} {l r : Float} :
      Answers mode table left (.ok l) → Answers mode table right (.ok r) →
      Answers mode table (.binary left op right) ((op.apply l r).mapError .domain)
  | unary {op : UnaryOp} {operand : Expr} {x : Float} :
      Answers mode table operand (.ok x) →
      Answers mode table (.unary op operand) ((op.apply mode x).mapError .domain)

/-- What a node answers by itself is its evaluation. -/
theorem Answers.evaluate_eq {node : Expr} {answer : Except Error Float}
    (h : Answers mode table node answer) :
  node.evaluate mode table = answer
  := by
  induction h with
  | number value => rfl
  | «variable» h | undefined h => rw [evaluate, h]
  | binary _ _ ihleft ihright =>
    rw [evaluate, ihleft, ihright]
    rfl
  | unary _ ih =>
    rw [evaluate, ih]
    rfl

/-- A node fails by itself because of a name or of an operation. -/
theorem Answers.kind_eq {node : Expr} {error : Error} (h : Answers mode table node (.error error)) :
  error.kind = .mathDomain ∨ error.kind = .unknownIdentifier
  := by
  have hdomain : ∀ {answer : Except DomainError Float}, .error error = answer.mapError .domain →
      error.kind = .mathDomain := by
    rintro (cause | value) heq
    · cases heq
      rfl
    · cases heq
  generalize hanswer : Except.error error = answer at h
  cases h with
  | number | «variable» => cases hanswer
  | undefined =>
    cases hanswer
    right
    rfl
  | binary | unary =>
    left
    apply hdomain hanswer

/-! ### All nodes -/

/-- Whether a node has a value by itself. -/
def Succeeds (mode : AngleMode) (table : List (String × Float)) (node : Expr) : Prop :=
  ∃ value : Float, Answers mode table node (.ok value)

/-- A node that fails has no value. -/
theorem Answers.not_succeeds {node : Expr} {error : Error} (h : Answers mode table node (.error error)) :
  ¬Succeeds mode table node
  := by
  rintro ⟨value, hvalue⟩
  cases h.evaluate_eq.symm.trans hvalue.evaluate_eq

/-- The error of the first of some nodes that fails; all nodes before it have values. -/
inductive FirstFailure (mode : AngleMode) (table : List (String × Float)) :
    List Expr → Error → Prop where
  | here {node : Expr} {after : List Expr} {error : Error} :
      Answers mode table node (.error error) → FirstFailure mode table (node :: after) error
  | later {node : Expr} {after : List Expr} {error : Error} :
      Succeeds mode table node → FirstFailure mode table after error →
      FirstFailure mode table (node :: after) error

namespace FirstFailure

/-- What stands behind a failure does not matter. -/
theorem append_left {nodes : List Expr} {error : Error} (h : FirstFailure mode table nodes error)
    (after : List Expr) :
  FirstFailure mode table (nodes ++ after) error
  := by
  induction h with
  | here hfails => apply here hfails
  | later hsucceeds _ ih => apply later hsucceeds ih

/-- Nodes that have values may stand in front. -/
theorem append_right {nodes : List Expr} {error : Error} (h : FirstFailure mode table nodes error)
    {before : List Expr} (hbefore : ∀ node ∈ before, Succeeds mode table node) :
  FirstFailure mode table (before ++ nodes) error
  := by
  induction before with
  | nil => apply h
  | cons node before ih =>
    obtain ⟨hnode, hbefore⟩ := List.forall_mem_cons.mp hbefore
    apply later hnode (ih hbefore)

/-- Some node fails with the error. -/
theorem exists_answers {nodes : List Expr} {error : Error} (h : FirstFailure mode table nodes error) :
  ∃ node ∈ nodes, Answers mode table node (.error error)
  := by
  induction h with
  | @here node after error hfails => use node, List.mem_cons_self, hfails
  | later _ _ ih =>
    obtain ⟨node, hmem, hfails⟩ := ih
    use node, List.mem_cons_of_mem _ hmem, hfails

/-- There is one first failure. -/
theorem unique {nodes : List Expr} {error error' : Error} (h : FirstFailure mode table nodes error)
    (h' : FirstFailure mode table nodes error') :
  error = error'
  := by
  induction h with
  | here hfails =>
    cases h' with
    | here hfails' => apply Except.error.inj (hfails.evaluate_eq.symm.trans hfails'.evaluate_eq)
    | later hsucceeds => cases hfails.not_succeeds hsucceeds
  | later hsucceeds _ ih =>
    cases h' with
    | here hfails' => cases hfails'.not_succeeds hsucceeds
    | later _ h' => apply ih h'

end FirstFailure

/-! ### Evaluation -/

/-- The two outcomes of an expression whose operands have values. -/
theorem cases_of_answers {e : Expr} {answer : Except Error Float} (before : List Expr)
    (hnodes : e.nodes = before ++ [e]) (hbefore : ∀ node ∈ before, Succeeds mode table node)
    (h : Answers mode table e answer) :
  (∃ value : Float, Answers mode table e (.ok value) ∧
    ∀ node ∈ e.nodes, Succeeds mode table node) ∨
  ∃ error : Error, e.evaluate mode table = .error error ∧ FirstFailure mode table e.nodes error
  := by
  rw [hnodes]
  cases answer with
  | ok value =>
    left
    use value, h
    refine List.forall_mem_append.mpr ⟨hbefore, ?_⟩
    intro node hnode
    rw [List.mem_singleton.mp hnode]
    use value, h
  | error error =>
    right
    use error, h.evaluate_eq
    apply FirstFailure.append_right (.here h) hbefore

/-- Either all nodes of an expression have values, or evaluation gives the first failure. -/
theorem evaluate_cases (mode : AngleMode) (table : List (String × Float)) :
    ∀ e : Expr,
      (∃ value : Float, Answers mode table e (.ok value) ∧
        ∀ node ∈ e.nodes, Succeeds mode table node) ∨
      ∃ error : Error, e.evaluate mode table = .error error ∧ FirstFailure mode table e.nodes error
  | .number value => cases_of_answers [] rfl (List.forall_mem_nil _) (.number value)
  | .variable name => by
      cases h : constant? name table with
      | some value => apply cases_of_answers [] rfl (List.forall_mem_nil _) (.variable h)
      | none => apply cases_of_answers [] rfl (List.forall_mem_nil _) (.undefined h)
  | .binary left op right => by
      rcases evaluate_cases mode table left with ⟨l, hl, hleft⟩ | ⟨error, hl, hleft⟩
      · rcases evaluate_cases mode table right with ⟨r, hr, hright⟩ | ⟨error, hr, hright⟩
        · apply cases_of_answers _ rfl (List.forall_mem_append.mpr ⟨hleft, hright⟩) (.binary hl hr)
        · right
          use error
          rw [evaluate, hl.evaluate_eq, hr]
          use rfl, (hright.append_right hleft).append_left _
      · right
        use error
        rw [evaluate, hl]
        use rfl, (hleft.append_left _).append_left _
  | .unary op operand => by
      rcases evaluate_cases mode table operand with ⟨x, hx, hoperand⟩ | ⟨error, hx, hoperand⟩
      · apply cases_of_answers _ rfl hoperand (.unary hx)
      · right
        use error
        rw [evaluate, hx]
        use rfl, hoperand.append_left _

/-- The value of an expression is what its last node answers. -/
theorem evaluate_eq_ok_iff {e : Expr} {value : Float} :
  e.evaluate mode table = .ok value ↔ Answers mode table e (.ok value)
  := by
  constructor
  · intro h
    rcases evaluate_cases mode table e with ⟨value', hvalue, -⟩ |
      ⟨error, herror, -⟩
    · cases hvalue.evaluate_eq.symm.trans h
      apply hvalue
    · cases herror.symm.trans h
  · apply Answers.evaluate_eq

/-- An expression has a value exactly when all of its nodes have values. -/
theorem exists_evaluate_eq_ok_iff {e : Expr} :
  (∃ value : Float, e.evaluate mode table = .ok value) ↔
    ∀ node ∈ e.nodes, Succeeds mode table node
  := by
  rcases evaluate_cases mode table e with ⟨value, hvalue, hnodes⟩ |
    ⟨error, herror, hfirst⟩
  · exact ⟨fun _ => hnodes, fun _ => ⟨value, hvalue.evaluate_eq⟩⟩
  · obtain ⟨node, hmem, hfails⟩ := hfirst.exists_answers
    constructor
    · rintro ⟨value, hvalue⟩
      cases herror.symm.trans hvalue
    · intro h
      cases hfails.not_succeeds (h node hmem)

/-- Evaluation fails exactly with the error of the first node that fails. -/
theorem evaluate_eq_error_iff {e : Expr} {error : Error} :
  e.evaluate mode table = .error error ↔ FirstFailure mode table e.nodes error
  := by
  rcases evaluate_cases mode table e with ⟨value, hvalue, hnodes⟩ |
    ⟨error', herror, hfirst⟩
  · rw [hvalue.evaluate_eq]
    constructor
    · intro h
      cases h
    · intro h
      obtain ⟨node, hmem, hfails⟩ := h.exists_answers
      cases hfails.not_succeeds (hnodes node hmem)
  · rw [herror, Except.error.injEq]
    constructor
    · rintro rfl
      apply hfirst
    · apply hfirst.unique

/-- An expression that was read fails only by an operation or by a name. -/
theorem kind_of_evaluate {e : Expr} {error : Error} (h : e.evaluate mode table = .error error) :
  error.kind = .mathDomain ∨ error.kind = .unknownIdentifier
  := by
  obtain ⟨node, -, hfails⟩ := (evaluate_eq_error_iff.mp h).exists_answers
  apply hfails.kind_eq

end Expr

namespace Evaluator

/-- Evaluation is strict.  An expression has a value exactly when every node has one by itself, and
the value is that of the last node.  Otherwise the error is that of the first node that has none,
and neither a lexical nor a syntax error. -/
theorem evaluate_firstFailure (evaluator : Evaluator) (e : Expr) :
  ((∃ value : Float, evaluator.evaluate e = .ok value) ↔
    ∀ node ∈ e.nodes, node.Succeeds evaluator.mode evaluator.constants) ∧
  (∀ value : Float, evaluator.evaluate e = .ok value ↔
    e.Answers evaluator.mode evaluator.constants (.ok value)) ∧
  ∀ error : Error,
    (evaluator.evaluate e = .error error ↔
      Expr.FirstFailure evaluator.mode evaluator.constants e.nodes error) ∧
    (evaluator.evaluate e = .error error → error.kind ≠ .lexical ∧ error.kind ≠ .syntactic)
  := by
  refine ⟨Expr.exists_evaluate_eq_ok_iff, fun value => Expr.evaluate_eq_ok_iff, ?_⟩
  intro error
  use Expr.evaluate_eq_error_iff
  intro h
  rcases Expr.kind_of_evaluate h with hkind | hkind
  · rw [hkind]
    decide
  · rw [hkind]
    decide

/-- In `and(0 * ln(0), Y)` the logarithm fails first; neither the factor zero nor the name that is
not defined matters. -/
theorem evaluate_firstFailure_logarithm :
  let evaluator : Evaluator := {}
  let product : Expr := .binary (.number 0.0) (.operator .multiply) (.unary .ln (.number 0.0))
  let e : Expr := .binary product .and (.variable "Y")
  evaluator.evaluate e = .error (.domain .lnOfNonPositive) ∧
    Expr.FirstFailure evaluator.mode evaluator.constants e.nodes (.domain .lnOfNonPositive) ∧
    (Error.domain .lnOfNonPositive).kind ≠ .lexical ∧
    (Error.domain .lnOfNonPositive).kind ≠ .syntactic
  := by
  intro evaluator product e
  have herror : evaluator.evaluate e = .error (.domain .lnOfNonPositive) := by rfl
  obtain ⟨-, -, h⟩ := evaluator.evaluate_firstFailure e
  use herror, (h _).1.mp herror
  apply (h _).2 herror

end Evaluator

end Calculator
