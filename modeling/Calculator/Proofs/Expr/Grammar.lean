import Calculator.Expr.Parser
import Mathlib.Tactic.Use

/-!
# The grammar of expressions

`Grammar.Derives category ts e` says that the tokens `ts` are a phrase of a category and
that `e` is the tree of the phrase.  The sequences of the grammar, from the loosest to the
tightest, are expressions, terms and factors; a sequence is one operand, or a shorter
sequence, an operator and one more operand, so that its tree leans to the left.

* `Derives.sequence_iff`: a sequence is a non-empty list of operands with operators
  between them, and its tree is the left fold of the operands.
* `Derives.endOfInput_notMem`: no phrase contains the end of the input.
* `Derives.of_le`: a phrase of a tight category is also one of each looser category.
-/

namespace Calculator

/-- Operators bind at the levels of three sequences. -/
theorem Operator.level_lt_four (op : Operator) :
  op.level < 4
  := by
  cases op <;> decide

namespace Grammar

/-- The sequences of the grammar. -/
inductive Sequence where
  | expression
  | term
  | factor

/-- The categories of phrases. -/
inductive Category where
  | sequence (s : Sequence)
  | unary
  | primary

namespace Sequence

/-- The operators that join the operands of a sequence. -/
def operators : Sequence → List Operator
  | .expression => [.add, .subtract]
  | .term => [.multiply, .divide, .modulo]
  | .factor => [.power]

/-- The category of the operands of a sequence. -/
def operand : Sequence → Category
  | .expression => .sequence .term
  | .term => .sequence .factor
  | .factor => .unary

/-- The level of the operators that join the operands of a sequence. -/
def level : Sequence → Nat
  | .expression => 1
  | .term => 2
  | .factor => 3

/-- The operators of a sequence are those of its level. -/
theorem mem_operators_iff (s : Sequence) (op : Operator) :
  op ∈ s.operators ↔ op.level = s.level
  := by
  cases s <;> cases op <;> decide

end Sequence

/-- The category of the phrases that no operator below a level can break. -/
def Category.atLevel : Nat → Category
  | 0 | 1 => .sequence .expression
  | 2 => .sequence .term
  | 3 => .sequence .factor
  | _ => .unary

/-- A sequence is the category of its level. -/
theorem Category.atLevel_level (s : Sequence) :
  atLevel s.level = .sequence s
  := by
  cases s <;> rfl

/-- Whether the first token names a function. -/
def startsWithFunction : List Token → Bool
  | .identifier name :: _ => (UnaryOp.ofName? name).isSome
  | _ => false

/-- The phrases of each category, and their trees. -/
inductive Derives : Category → List Token → Expr → Prop where
  | operand {s : Sequence} {ts : List Token} {e : Expr} :
      Derives s.operand ts e → Derives (.sequence s) ts e
  | join {s : Sequence} {op : Operator} {ts us : List Token} {left right : Expr} :
      op ∈ s.operators → Derives (.sequence s) ts left → Derives s.operand us right →
      Derives (.sequence s) (ts ++ .operator op.symbol :: us) (.binary left (.operator op) right)
  | minus {ts : List Token} {e : Expr} :
      Derives .unary ts e → Derives .unary (.operator '-' :: ts) (.unary .negate e)
  | plus {ts : List Token} {e : Expr} :
      Derives .unary ts e → Derives .unary (.operator '+' :: ts) e
  | apply {name : String} {function : UnaryOp} {ts : List Token} {e : Expr} :
      UnaryOp.ofName? name = some function → Derives .primary ts e →
      Derives .unary (.identifier name :: ts) (.unary function e)
  | primary {ts : List Token} {e : Expr} :
      startsWithFunction ts = false → Derives .primary ts e → Derives .unary ts e
  | number (value : Float) :
      Derives .primary [.number value] (.number value)
  | name (text : String) :
      Derives .primary [.identifier text] (.variable (Text.uppercase text))
  | group {ts : List Token} {e : Expr} :
      Derives (.sequence .expression) ts e →
      Derives .primary (.leftParen :: ts ++ [.rightParen]) e

namespace Derives

/-- No phrase contains the end of the input. -/
theorem endOfInput_notMem {category : Category} {ts : List Token} {e : Expr}
    (h : Derives category ts e) :
  Token.endOfInput ∉ ts
  := by
  induction h <;> simp_all

/-! ### Sequences as lists of operands -/

/-- The tokens of an operator and the operand after it. -/
def stepTokens (part : Operator × List Token × Expr) : List Token :=
  .operator part.1.symbol :: part.2.1

/-- The tree of a sequence with one more operand. -/
def stepTree (left : Expr) (part : Operator × List Token × Expr) : Expr :=
  .binary left (.operator part.1) part.2.2

/-- A sequence goes on with operators and operands. -/
theorem append_parts {s : Sequence} {ts : List Token} {e : Expr} (h : Derives (.sequence s) ts e) :
  ∀ parts : List (Operator × List Token × Expr),
    (∀ part ∈ parts, part.1 ∈ s.operators ∧ Derives s.operand part.2.1 part.2.2) →
      Derives (.sequence s) (ts ++ parts.flatMap stepTokens) (parts.foldl stepTree e)
  | [], _ => by
      rw [List.flatMap_nil, List.append_nil]
      apply h
  | part :: parts, hparts => by
      obtain ⟨hop, hright⟩ := hparts part List.mem_cons_self
      have hstep := append_parts (join hop h hright) parts
        (fun other hother => hparts other (List.mem_cons_of_mem part hother))
      rw [List.append_assoc] at hstep
      apply hstep

/-- A sequence is a non-empty list of operands with operators between them, and its tree
is the left fold of their trees. -/
theorem sequence_iff {s : Sequence} {ts : List Token} {e : Expr} :
  Derives (.sequence s) ts e ↔
    ∃ (us : List Token) (first : Expr) (parts : List (Operator × List Token × Expr)),
      Derives s.operand us first ∧
      (∀ part ∈ parts, part.1 ∈ s.operators ∧ Derives s.operand part.2.1 part.2.2) ∧
      ts = us ++ parts.flatMap stepTokens ∧ e = parts.foldl stepTree first
  := by
  constructor
  · intro h
    generalize hc : Category.sequence s = category at h
    induction h with
    | @operand s' ts e hfirst =>
      cases hc
      use ts, e, []
      simpa using hfirst
    | @join s' op ts us left right hop hleft hright ihleft =>
      cases hc
      obtain ⟨vs, first, parts, hfirst, hparts, rfl, rfl⟩ := ihleft rfl
      use vs, first, parts ++ [(op, us, right)], hfirst
      constructor
      · intro part hpart
        rcases List.mem_append.mp hpart with hpart | hpart
        · apply hparts part hpart
        · cases List.mem_singleton.mp hpart
          use hop, hright
      · simp [stepTokens, stepTree]
    | _ => cases hc
  · rintro ⟨us, first, parts, hfirst, hparts, rfl, rfl⟩
    apply append_parts (operand hfirst) parts hparts

/-! ### Categories by level -/

/-- A phrase of one level is one of the level before. -/
theorem of_succ {ts : List Token} {e : Expr} :
  ∀ {level : Nat}, Derives (.atLevel (level + 1)) ts e → Derives (.atLevel level) ts e
  | 0, h => h
  | 1, h => operand h
  | 2, h => operand h
  | 3, h => operand h
  | _ + 4, h => h

/-- A phrase of a tight category is also one of each looser category. -/
theorem of_le {ts : List Token} {e : Expr} {low high : Nat} (hle : low ≤ high)
    (h : Derives (.atLevel high) ts e) :
  Derives (.atLevel low) ts e
  := by
  induction hle with
  | refl => apply h
  | step _ ih => apply ih (of_succ h)

/-- An operator joins a phrase of its level and one of the next. -/
theorem join_level {op : Operator} {ts us : List Token} {left right : Expr}
    (hleft : Derives (.atLevel op.level) ts left)
    (hright : Derives (.atLevel (op.level + 1)) us right) :
  Derives (.atLevel op.level) (ts ++ .operator op.symbol :: us) (.binary left (.operator op) right)
  := by
  cases op <;> apply join (by decide) hleft hright

end Derives

end Grammar

end Calculator
