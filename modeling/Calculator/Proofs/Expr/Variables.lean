import Calculator.Proofs.Expr.Acceptance
import Calculator.Proofs.Text.Case

/-!
# Names of functions among the variables

The names of the variables of an expression are those of its identifiers that are not
applied as functions (`Grammar.variableNames`), in upper case.  The name of a function is
applied unless it stands right after the name of a function, where only a primary may
follow.

So a variable of an expression that was read has the name of a function in exactly two cases
(`parse_variable_isFunction_iff`): the name of a function stands right after another
identifier, as in `abs sin`, or an identifier names a function only once it is in upper case,
as `coſ` does, where the upper case of the long s is `S`.
-/

namespace Calculator

/-- The names of the variables of an expression, from left to right. -/
def Expr.variables : Expr → List String
  | .number _ => []
  | .variable name => [name]
  | .binary left _ right => left.variables ++ right.variables
  | .unary _ operand => operand.variables

/-- Whether a token is an identifier. -/
def Token.isIdentifier : Token → Bool
  | .identifier _ => true
  | _ => false

namespace Grammar

/-- Whether the phrases of a category may stand right after the name of a function. -/
def Category.isPrimary : Category → Bool
  | .primary => true
  | _ => false

/-- The name that a token gives to a variable, where `follows` says whether an identifier
stands right before the token. -/
def variableName? (follows : Bool) : Token → Option String
  | .identifier name =>
    if !follows && (UnaryOp.ofName? name).isSome then none else some (Text.uppercase name)
  | _ => none

/-- The names that tokens give to variables, from left to right. -/
def variableNames (follows : Bool) : List Token → List String
  | [] => []
  | token :: ts => (variableName? follows token).toList ++ variableNames token.isIdentifier ts

/-- Whether an identifier stands right before the tokens after a list. -/
def followsIdentifier (follows : Bool) (ts : List Token) : Bool :=
  ts.getLast?.elim follows Token.isIdentifier

/-- What stands before the tokens after a longer list depends on the longer list alone. -/
theorem followsIdentifier_cons (follows : Bool) (token : Token) (ts : List Token) :
  followsIdentifier follows (token :: ts) = followsIdentifier token.isIdentifier ts
  := by
  rw [followsIdentifier, followsIdentifier, List.getLast?_cons]
  cases ts.getLast? <;> rfl

/-- The names of two lists one after the other. -/
theorem variableNames_append (us : List Token) :
  ∀ (follows : Bool) (ts : List Token),
    variableNames follows (ts ++ us)
      = variableNames follows ts ++ variableNames (followsIdentifier follows ts) us
  | _, [] => rfl
  | follows, token :: ts => by
      rw [List.cons_append, variableNames, variableNames_append us, followsIdentifier_cons,
        variableNames, List.append_assoc]

/-- Each name comes from one of the tokens. -/
theorem exists_of_mem_variableNames {text : String} :
  ∀ {follows : Bool} {ts : List Token}, text ∈ variableNames follows ts →
    ∃ (before : List Token) (token : Token) (after : List Token),
      ts = before ++ token :: after ∧
      variableName? (followsIdentifier follows before) token = some text
  | _, [], h => by cases h
  | follows, token :: ts, h => by
      rcases List.mem_append.mp h with hfirst | hrest
      · use [], token, ts, rfl
        apply Option.mem_toList.mp hfirst
      · obtain ⟨before, found, after, rfl, hname⟩ := exists_of_mem_variableNames hrest
        use token :: before, found, after, rfl
        rw [followsIdentifier_cons]
        apply hname

/-- The names are those that single tokens give. -/
theorem mem_variableNames_iff {text : String} {follows : Bool} {ts : List Token} :
  text ∈ variableNames follows ts ↔
    ∃ (before : List Token) (token : Token) (after : List Token),
      ts = before ++ token :: after ∧
      variableName? (followsIdentifier follows before) token = some text
  := by
  constructor
  · apply exists_of_mem_variableNames
  · rintro ⟨before, token, after, rfl, hname⟩
    rw [variableNames_append, variableNames, hname]
    simp

/-- A token gives the name of a function to a variable if it is the name of a function after
an identifier, or names a function in upper case only. -/
theorem exists_variableName?_isFunction_iff {follows : Bool} {token : Token} :
  (∃ text : String, variableName? follows token = some text ∧ (UnaryOp.ofName? text).isSome) ↔
    ∃ name : String, token = .identifier name ∧
      ((UnaryOp.ofName? name).isSome ∧ follows = true ∨
        UnaryOp.ofName? name = none ∧ (UnaryOp.ofName? (Text.uppercase name)).isSome)
  := by
  cases token with
  | identifier name =>
    cases hname : UnaryOp.ofName? name with
    | none => simp [variableName?, hname]
    | some function =>
      have hupper := UnaryOp.ofName?_uppercase hname
      cases follows <;> simp [variableName?, hname, hupper]
  | _ => simp [variableName?]

/-- At the beginning of a phrase that starts with no function it makes no difference what
stands before it. -/
theorem variableNames_of_startsWithFunction {ts : List Token}
    (h : startsWithFunction ts = false) :
  variableNames false ts = variableNames true ts
  := by
  cases ts with
  | nil => rfl
  | cons token ts =>
    cases token with
    | identifier name =>
      have hname : (UnaryOp.ofName? name).isSome = false := h
      simp [variableNames, variableName?, hname]
    | _ => rfl

/-- The names of the variables of a phrase are those that its tokens give. -/
theorem Derives.variables_eq {category : Category} {ts : List Token} {e : Expr}
    (h : Derives category ts e) :
  e.variables = variableNames category.isPrimary ts
  := by
  induction h with
  | @operand s ts e _ ih =>
    rw [ih]
    cases s <;> rfl
  | @join s op ts us left right _ _ _ ihleft ihright =>
    have hright : right.variables = variableNames false us := by
      rw [ihright]
      cases s <;> rfl
    rw [Expr.variables, ihleft, hright, variableNames_append]
    rfl
  | minus _ ih | plus _ ih => apply ih
  | apply hname _ ih =>
    rw [Expr.variables, ih]
    simp [variableNames, variableName?, hname, Category.isPrimary, Token.isIdentifier]
  | primary hstart _ ih =>
    rw [ih]
    apply (variableNames_of_startsWithFunction hstart).symm
  | number value | name text => rfl
  | @group ts e _ ih =>
    rw [ih, List.cons_append, variableNames, variableNames_append]
    simp [variableNames, variableName?, Category.isPrimary, Token.isIdentifier]

end Grammar

open Grammar

/-- A variable of an expression that was read has the name of a function exactly if the name
of a function stands right after an identifier, or an identifier that names no function names
one in upper case. -/
theorem parse_variable_isFunction_iff {text : String} {e : Expr} (h : parse text = .ok e) :
  ∃ ts : List Token, tokenize text = .ok ts ∧
    ((∃ name ∈ e.variables, (UnaryOp.ofName? name).isSome) ↔
      ∃ (before : List Token) (name : String) (after : List Token),
        ts = before ++ .identifier name :: after ∧
        ((UnaryOp.ofName? name).isSome ∧ followsIdentifier false before = true ∨
          UnaryOp.ofName? name = none ∧ (UnaryOp.ofName? (Text.uppercase name)).isSome))
  := by
  obtain ⟨ts, htokens, he⟩ := parse_eq_ok_iff.mp h
  use ts ++ [.endOfInput], htokens
  have hnames : e.variables = variableNames false (ts ++ [.endOfInput]) := by
    rw [he.variables_eq, variableNames_append]
    simp [variableNames, variableName?, Category.isPrimary]
  simp only [hnames, mem_variableNames_iff]
  constructor
  · rintro ⟨text, ⟨before, token, after, heq, hname⟩, hfunction⟩
    obtain ⟨name, rfl, hcases⟩ := exists_variableName?_isFunction_iff.mp ⟨text, hname, hfunction⟩
    use before, name, after, heq
  · rintro ⟨before, name, after, heq, hcases⟩
    obtain ⟨text, hname, hfunction⟩ :=
      exists_variableName?_isFunction_iff.mpr ⟨name, rfl, hcases⟩
    use text, ⟨before, .identifier name, after, heq, hname⟩

/-- The function `abs` is applied to a variable with the name of the function `sin`. -/
theorem parse_variable_isFunction_iff_abs_sin :
  parse "abs sin" = .ok (.unary .abs (.variable "SIN")) ∧
    ∃ (ts before : List Token) (name : String) (after : List Token),
      tokenize "abs sin" = .ok ts ∧ ts = before ++ .identifier name :: after ∧
      ((UnaryOp.ofName? name).isSome ∧ followsIdentifier false before = true ∨
        UnaryOp.ofName? name = none ∧ (UnaryOp.ofName? (Text.uppercase name)).isSome)
  := by
  have hsin : Spells ['s', 'i', 'n'] [.identifier "sin", .endOfInput] := by
    apply @Spells.identifier 's' ['i', 'n'] [] [.endOfInput] rfl (List.all_eq_true.mp rfl) _
      Spells.nil
    intro d hd
    cases hd
  have habs : Spells ['a', 'b', 's', ' ', 's', 'i', 'n']
      [.identifier "abs", .identifier "sin", .endOfInput] := by
    apply @Spells.identifier 'a' ['b', 's'] [' ', 's', 'i', 'n'] [.identifier "sin", .endOfInput]
      rfl (List.all_eq_true.mp rfl) _ (Spells.blank rfl hsin)
    intro d hd
    rw [← Option.some.inj hd]
    decide +kernel
  have htokens : tokenize "abs sin" = .ok [.identifier "abs", .identifier "sin", .endOfInput] :=
    habs 0
  have hparse : parse "abs sin" = .ok (.unary .abs (.variable "SIN")) := by
    rw [parse, if_neg (by decide), htokens]
    rfl
  obtain ⟨ts, hts, hiff⟩ := parse_variable_isFunction_iff hparse
  obtain ⟨before, name, after, heq, hcases⟩ := hiff.mp ⟨"SIN", by decide, by decide⟩
  use hparse, ts, before, name, after, hts, heq

end Calculator
