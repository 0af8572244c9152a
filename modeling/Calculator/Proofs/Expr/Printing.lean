import Calculator.Evaluator
import Calculator.Proofs.Expr.Acceptance
import Calculator.Proofs.Number.Numeral
import Calculator.Proofs.Text.Case

/-!
# Printed expressions read back

The text of an expression is read as the expression again, except that a number with the
negative sign becomes the negative of its size (`Expr.signed`), which has the same value.
Each printed part is a unary phrase, so that it may stand as an operand of any operator.
-/

namespace Calculator

open Grammar

/-! ### Names -/

/-- Whether characters are an identifier. -/
def isIdentifier : List Char → Bool
  | [] => false
  | c :: cs => startsIdentifier c && cs.all continuesIdentifier

/-- Whether characters are an upper-case identifier of ASCII letters, digits and underscores. -/
def isUpperIdentifier : List Char → Bool
  | [] => false
  | c :: cs => (c.isUpper || c == '_') && cs.all fun d => d.isUpper || d.isDigit || d == '_'

/-- An upper-case letter, a digit or an underscore of ASCII goes on with an identifier, begins
one if it is no digit, and is its own upper case. -/
theorem continuesIdentifier_of_isUpper {c : Char}
    (hc : (c.isUpper || c.isDigit || c == '_') = true) :
  c.toNat < 128 ∧ continuesIdentifier c = true ∧ c.toUpper = c ∧
    (c.isDigit = false → startsIdentifier c = true)
  := by
  have hascii : c.toNat < 128 := by
    cases hdigit : c.isDigit with
    | true => apply Text.toNat_lt_of_isDigit hdigit
    | false =>
      apply Spells.toNat_lt_of_startsIdentifier
      rw [startsIdentifier, Char.isAlpha]
      simp only [hdigit, Bool.or_false, Bool.or_eq_true] at hc ⊢
      rcases hc with hupper | hunderscore
      · left
        left
        apply hupper
      · right
        apply hunderscore
  use hascii
  revert hc
  apply Text.forall_ascii _ hascii
  decide +kernel

/-- All characters of an upper-case identifier go on with an identifier, and the first one is
no digit. -/
theorem exists_of_isUpperIdentifier {cs : List Char} (h : isUpperIdentifier cs = true) :
  (∃ (d : Char) (ds : List Char), cs = d :: ds ∧ d.isDigit = false) ∧
    ∀ c ∈ cs, (c.isUpper || c.isDigit || c == '_') = true
  := by
  cases cs with
  | nil => cases h
  | cons d ds =>
    obtain ⟨hd, hds⟩ := Bool.and_eq_true_iff.mp h
    have hclass : (d.isUpper || d.isDigit || d == '_') = true := by
      rw [Bool.or_right_comm, hd, Bool.true_or]
    constructor
    · use d, ds, rfl
      revert hd
      apply Text.forall_ascii _ (continuesIdentifier_of_isUpper hclass).1
      decide
    · intro c hc
      rcases List.mem_cons.mp hc with rfl | hc
      · apply hclass
      · apply List.all_eq_true.mp hds c hc

/-- An upper-case identifier is an identifier. -/
theorem isIdentifier_of_isUpperIdentifier {cs : List Char} (h : isUpperIdentifier cs = true) :
  isIdentifier cs = true
  := by
  obtain ⟨⟨d, ds, rfl, hd⟩, hall⟩ := exists_of_isUpperIdentifier h
  apply Bool.and_eq_true_iff.mpr
  constructor
  · apply (continuesIdentifier_of_isUpper (hall d List.mem_cons_self)).2.2.2 hd
  · apply List.all_eq_true.mpr
    intro c hc
    apply (continuesIdentifier_of_isUpper (hall c (List.mem_cons_of_mem d hc))).2.1

/-- An upper-case identifier is its own upper case. -/
theorem uppercase_of_isUpperIdentifier {name : String} (h : isUpperIdentifier name.toList = true) :
  Text.uppercase name = name
  := by
  have hall := (exists_of_isUpperIdentifier h).2
  have hascii : Text.IsAscii name := fun c hc => (continuesIdentifier_of_isUpper (hall c hc)).1
  apply String.toList_inj.mp
  rw [Text.toList_uppercase hascii]
  calc
    name.toList.map Char.toUpper = name.toList.map id :=
      List.map_congr_left fun c hc => (continuesIdentifier_of_isUpper (hall c hc)).2.2.1
    _ = name.toList := List.map_id name.toList

/-- An identifier before anything that does not go on with it. -/
theorem Spells.identifier_append {name : String} {rest : List Char} {us : List Token}
    (hname : isIdentifier name.toList = true)
    (hrest : ∀ d ∈ rest.head?, continuesIdentifier d = false) (h : Spells rest us) :
  Spells (name.toList ++ rest) (.identifier name :: us)
  := by
  have hofList := String.ofList_toList (s := name)
  generalize name.toList = cs at hname hofList
  subst hofList
  cases cs with
  | nil => cases hname
  | cons c cs =>
    obtain ⟨hstart, hcontinue⟩ := Bool.and_eq_true_iff.mp hname
    apply Spells.identifier hstart (List.all_eq_true.mp hcontinue) hrest h

/-- The names of functions are identifiers, and name their functions. -/
theorem isIdentifier_of_mem_functions :
  ∀ op ∈ UnaryOp.functions, isIdentifier op.name.toList = true ∧
    UnaryOp.ofName? op.name = some op
  := by
  decide +kernel

/-- Every operation but negation is applied by its name. -/
theorem mem_functions {op : UnaryOp} (h : op ≠ .negate) :
  op ∈ UnaryOp.functions
  := by
  cases op with
  | negate => cases h rfl
  | circular ratio | arc ratio | hyperbolic ratio | area ratio => cases ratio <;> decide
  | _ => decide

/-! ### Printed expressions -/

/-- Whether the sign bit of a number is set. -/
def signBit (x : Float) : Bool :=
  decide (2 ^ 63 ≤ x.toBits.toNat)

/-- The sign bit of a finite number is the sign of its reading. -/
theorem signBit_eq {x : Float} {negative : Bool} {m : Nat} {e : Int}
    (h : Reading.ofFloat x = .finite negative m e) :
  signBit x = negative
  := by
  simp only [Reading.ofFloat] at h
  split at h
  · split at h <;> cases h
  · split at h <;> cases h <;> rfl

/-- The expressions whose text can be read. -/
inductive Printable : Expr → Prop where
  | number {value : Float} : value.isFinite = true → Printable (.number value)
  | name {text : String} :
      isUpperIdentifier text.toList = true → UnaryOp.ofName? text = none →
      Printable (.variable text)
  | binary {left right : Expr} {op : Operator} :
      Printable left → Printable right → Printable (.binary left (.operator op) right)
  | unary {op : UnaryOp} {operand : Expr} : Printable operand → Printable (.unary op operand)

namespace Expr

/-- The expression with the sign of each number as an operation. -/
def signed : Expr → Expr
  | .number value => if signBit value then .unary .negate (.number value.abs) else .number value
  | .variable name => .variable name
  | .binary left op right => .binary left.signed op right.signed
  | .unary op operand => .unary op operand.signed

end Expr

/-- What may stand after a printed expression inside another one. -/
def EndsOperand (rest : List Char) : Prop :=
  ∀ d ∈ rest.head?, d = ' ' ∨ d = ')'

/-- What characters spell before anything that may follow an operand. -/
def SpellsOperand (cs : List Char) (ts : List Token) : Prop :=
  ∀ (rest : List Char) (us : List Token), EndsOperand rest → Spells rest us →
    Spells (cs ++ rest) (ts ++ us)

/-- An operand before the end of a group. -/
theorem SpellsOperand.closed {cs : List Char} {ts : List Token} (h : SpellsOperand cs ts)
    {rest : List Char} {us : List Token} (hus : Spells rest us) :
  Spells (cs ++ ')' :: rest) (ts ++ .rightParen :: us)
  := by
  apply h
  · intro d hd
    right
    apply (Option.mem_some.mp hd).symm
  · apply Spells.single (by decide) (by decide) hus

/-- An operand before an operator. -/
theorem SpellsOperand.operator {cs : List Char} {ts : List Token} (h : SpellsOperand cs ts)
    (op : Operator) {rest : List Char} {us : List Token} (hus : Spells rest us) :
  Spells (cs ++ ' ' :: op.symbol :: ' ' :: rest) (ts ++ .operator op.symbol :: us)
  := by
  have hblank : Text.isBlank op.symbol = false := by cases op <;> decide
  have hsingle : singleToken? op.symbol = some (.operator op.symbol) := by cases op <;> decide
  apply h
  · intro d hd
    left
    apply (Option.mem_some.mp hd).symm
  · apply Spells.blank (by decide)
    apply Spells.single hblank hsingle
    apply Spells.blank (by decide) hus

/-- The text of an expression is a unary phrase, wherever an operand may stand. -/
def Prints (text : String) (e : Expr) : Prop :=
  ∃ ts : List Token, Derives .unary ts e ∧ SpellsOperand text.toList ts

/-- What ends an operand ends a number and a name. -/
theorem EndsOperand.not_continues {rest : List Char} (h : EndsOperand rest) :
  (∀ d ∈ rest.head?, d.isDigit = false ∧ d ≠ '.') ∧
    ∀ d ∈ rest.head?, continuesIdentifier d = false
  := by
  constructor
  · intro d hd
    rcases h d hd with rfl | rfl <;> decide
  · intro d hd
    rcases h d hd with rfl | rfl <;> decide +kernel

/-- A numeral before anything that does not go on with it. -/
theorem Spells.numeral_append {literal rest : List Char} {value : Float} {us : List Token}
    (hliteral : IsNumeral literal value)
    (hrest : ∀ d ∈ rest.head?, d.isDigit = false ∧ d ≠ '.') (h : Spells rest us) :
  Spells (literal ++ rest) (.number value :: us)
  := by
  cases literal with
  | nil => cases hliteral.nonempty rfl
  | cons c cs =>
    apply Spells.number (hliteral.isDigit c rfl) (hliteral.run rest hrest) hliteral.value h

namespace Prints

/-- The text of a finite number. -/
theorem number {value : Float} (h : value.isFinite = true) :
  Prints (numberText value) (Expr.number value).signed
  := by
  obtain ⟨negative, m, e, hreading⟩ := Reading.exists_finite_of_isFinite h
  obtain ⟨literal, htext, hliteral⟩ := toList_numberText hreading
  have hderives : Derives .unary [.number value.abs] (.number value.abs) :=
    .primary rfl (.number value.abs)
  rw [Expr.signed, signBit_eq hreading]
  cases negative with
  | true =>
    use [.operator '-', .number value.abs], hderives.minus
    intro rest us hrest hus
    rw [htext, List.append_assoc]
    apply Spells.single (by decide) (by decide)
    apply Spells.numeral_append hliteral hrest.not_continues.1 hus
  | false =>
    have habs : value.abs = value := Reading.eq_of_ofFloat (Reading.ofFloat_abs hreading) hreading
    rw [habs] at hderives hliteral
    use [.number value], hderives
    intro rest us hrest hus
    rw [htext, List.append_assoc]
    apply Spells.numeral_append hliteral hrest.not_continues.1 hus

/-- The text of a variable. -/
theorem name {text : String} (htext : isUpperIdentifier text.toList = true)
    (hname : UnaryOp.ofName? text = none) :
  Prints text (.variable text)
  := by
  have hprimary := Derives.name text
  rw [uppercase_of_isUpperIdentifier htext] at hprimary
  use [.identifier text]
  constructor
  · apply Derives.primary _ hprimary
    rw [startsWithFunction, hname]
    rfl
  · intro rest us hrest hus
    apply Spells.identifier_append (isIdentifier_of_isUpperIdentifier htext)
      hrest.not_continues.2 hus

/-- An operator between two printed operands, in parentheses. -/
theorem binary {left right : String} {l r : Expr} (hleft : Prints left l) (hright : Prints right r)
    (op : Operator) :
  Prints ("(" ++ left ++ " " ++ String.singleton op.symbol ++ " " ++ right ++ ")")
    (.binary l (.operator op) r)
  := by
  obtain ⟨ts, hts, hspells⟩ := hleft
  obtain ⟨ts', hts', hspells'⟩ := hright
  have hlevel : 1 ≤ op.level := by cases op <;> decide
  have hjoin : Derives (.atLevel op.level) (ts ++ .operator op.symbol :: ts')
      (.binary l (.operator op) r) := by
    apply Derives.join_level
    · apply Derives.of_le (Nat.le_of_lt op.level_lt_four) hts
    · apply Derives.of_le op.level_lt_four hts'
  use .leftParen :: (ts ++ .operator op.symbol :: ts') ++ [.rightParen]
  constructor
  · apply Derives.primary rfl (.group (hjoin.of_le hlevel))
  · intro rest us _ hus
    have hoperands := hspells.operator op (hspells'.closed hus)
    have hspelled := Spells.single (c := '(') (by decide) rfl hoperands
    simpa [String.toList_append] using hspelled

/-- A minus sign before a printed operand, in parentheses. -/
theorem negate {operand : String} {e : Expr} (h : Prints operand e) :
  Prints ("(-" ++ operand ++ ")") (.unary .negate e)
  := by
  obtain ⟨ts, hts, hspells⟩ := h
  have hle : 1 ≤ 4 := by decide
  use .leftParen :: (.operator '-' :: ts) ++ [.rightParen]
  constructor
  · apply Derives.primary rfl (.group (Derives.of_le hle hts.minus))
  · intro rest us _ hus
    have hminus := Spells.single (c := '-') (by decide) rfl (hspells.closed hus)
    have hspelled := Spells.single (c := '(') (by decide) rfl hminus
    simpa [String.toList_append] using hspelled

/-- The name of a function before a printed operand in parentheses. -/
theorem apply {operand : String} {e : Expr} (h : Prints operand e) {op : UnaryOp}
    (hop : op ≠ .negate) :
  Prints (op.name ++ "(" ++ operand ++ ")") (.unary op e)
  := by
  obtain ⟨ts, hts, hspells⟩ := h
  obtain ⟨hname, hfunction⟩ := isIdentifier_of_mem_functions op (mem_functions hop)
  have hle : 1 ≤ 4 := by decide
  use .identifier op.name :: (.leftParen :: ts ++ [.rightParen])
  constructor
  · apply Derives.apply hfunction (.group (Derives.of_le hle hts))
  · intro rest us _ hus
    have hgroup := Spells.single (c := '(') (by decide) rfl (hspells.closed hus)
    have hparen : ∀ d ∈ ('(' :: (operand.toList ++ ')' :: rest)).head?,
        continuesIdentifier d = false := by
      intro d hd
      rw [← Option.mem_some.mp hd]
      decide +kernel
    have hspelled := Spells.identifier_append hname hparen hgroup
    simpa [String.toList_append] using hspelled

end Prints

/-- Every printable expression prints itself with signs. -/
theorem Printable.prints {e : Expr} (h : Printable e) :
  Prints e.render e.signed
  := by
  induction h with
  | number h => apply Prints.number h
  | name htext hname => apply Prints.name htext hname
  | binary _ _ ihleft ihright => apply Prints.binary ihleft ihright
  | @unary op operand _ ih =>
    by_cases hop : op = .negate
    · subst hop
      apply Prints.negate ih
    · have hrender : (Expr.unary op operand).render = op.name ++ "(" ++ operand.render ++ ")" := by
        cases op <;> first | rfl | cases hop rfl
      rw [hrender]
      apply Prints.apply ih hop

/-! ### Values -/

/-- A finite number with the negative sign is the negative of its size. -/
theorem neg_abs_of_signBit {x : Float} (h : x.isFinite = true) (hsign : signBit x = true) :
  -x.abs = x
  := by
  obtain ⟨negative, m, e, hreading⟩ := Reading.exists_finite_of_isFinite h
  rw [signBit_eq hreading] at hsign
  subst hsign
  apply Reading.eq_of_ofFloat _ hreading
  apply Reading.ofFloat_neg (Reading.ofFloat_abs hreading)

/-- The signs of numbers may be operations. -/
theorem Printable.evaluate_signed {e : Expr} (h : Printable e) (mode : AngleMode) :
  e.signed.evaluate mode = e.evaluate mode
  := by
  induction h with
  | @number value hfinite =>
    rw [Expr.signed]
    split
    · rename_i hsign
      have hvalue := neg_abs_of_signBit hfinite hsign
      change Except.ok (-value.abs) = Except.ok value
      rw [hvalue]
    · rfl
  | name => rfl
  | binary _ _ ihleft ihright =>
    rw [Expr.signed, Expr.evaluate, ihleft, ihright, Expr.evaluate]
  | unary _ ih => rw [Expr.signed, Expr.evaluate, ih, Expr.evaluate]

/-! ### The round trip -/

/-- The text of a printable expression is read as the expression with signs, which has the same
value or the same error in both modes, and the text of a finite number has the number as its
value. -/
theorem parse_render :
  (∀ e : Expr, Printable e →
    parse e.render = .ok e.signed ∧
    ∀ mode : AngleMode,
      (Evaluator.mk mode).evaluate e.signed = (Evaluator.mk mode).evaluate e) ∧
  ∀ x : Float, x.isFinite = true → ∀ mode : AngleMode,
    (Evaluator.mk mode).evaluateText (numberText x) = .ok x
  := by
  have hread : ∀ e : Expr, Printable e → parse e.render = .ok e.signed := by
    intro e he
    obtain ⟨ts, hts, hspells⟩ := he.prints
    apply parse_eq_ok_iff.mpr
    use ts
    constructor
    · have htokens := hspells [] [.endOfInput] (by intro d hd; cases hd) Spells.nil
      rw [List.append_nil] at htokens
      apply htokens 0
    · have hle : 1 ≤ 4 := by decide
      apply Derives.of_le hle hts
  constructor
  · intro e he
    use hread e he
    intro mode
    apply he.evaluate_signed mode
  · intro x hx mode
    have hvalue := (Printable.number hx).evaluate_signed mode
    have hparse := hread (.number x) (.number hx)
    rw [Expr.render] at hparse
    rw [Evaluator.evaluateText, hparse]
    apply hvalue

/-- The twofold negative of a power of a negative number, and the negative zero. -/
theorem parse_render_negative_power :
  let power (base : Expr) : Expr :=
    .binary base (.operator .power) (.unary .log10 (.variable "X_1"))
  let e : Expr := .unary .negate (.unary .negate (power (.number (-2.5))))
  let e' : Expr := .unary .negate (.unary .negate (power (.unary .negate (.number 2.5))))
  Printable e ∧ e.render = "(-(-(-2.5 ^ log10(X_1))))" ∧ e.signed = e' ∧
    parse "(-(-(-2.5 ^ log10(X_1))))" = .ok e' ∧
    (∀ mode : AngleMode, (Evaluator.mk mode).evaluate e' = (Evaluator.mk mode).evaluate e) ∧
    (-0.0 : Float).isFinite = true ∧
    ∀ mode : AngleMode, (Evaluator.mk mode).evaluateText (numberText (-0.0)) = .ok (-0.0)
  := by
  intro power e e'
  have hbase : (-2.5 : Float).isFinite = true := by decide +kernel
  have hname : isUpperIdentifier "X_1".toList = true := by decide
  have he : Printable e :=
    .unary (.unary (.binary (.number hbase) (.unary (.name hname (by decide)))))
  have hrender : e.render = "(-(-(-2.5 ^ log10(X_1))))" := by decide +kernel
  have hsigned : e.signed = e' := by decide +kernel
  have hzero : (-0.0 : Float).isFinite = true := by decide +kernel
  obtain ⟨hparse, hvalue⟩ := parse_render.1 e he
  rw [hrender, hsigned] at hparse
  rw [hsigned] at hvalue
  use he, hrender, hsigned, hparse, hvalue, hzero
  apply parse_render.2 (-0.0) hzero

end Calculator
