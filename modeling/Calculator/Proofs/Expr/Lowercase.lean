import Calculator.Evaluator
import Calculator.Proofs.Expr.Refusal
import Calculator.Proofs.Token.Lowercase

/-!
# Expressions in lower case

A text is read as the same expression whatever the case of its letters `A` to `Z`: names of
functions are compared in lower case, and names of constants are kept in upper case.  What may
differ is the case of the name that an error cites.

* `Position.run_lowercase`: reading tokens in lower case ends as reading the tokens does.
* `parse_lowercase`: a text in lower case spells the expression that the text spells, or fails
  with the same error in lower case.
* `parse_of_lowercase_eq`: so texts that differ in case alone have the same expression and the
  same value, or errors that differ in the case of a name.
-/

namespace Calculator

/-! ### Names -/

namespace Text

/-- A text in lower case is its own lower case. -/
theorem lowercase_lowercase (text : String) :
  lowercase (lowercase text) = lowercase text
  := by
  have hchar : Char.toLower ∘ Char.toLower = Char.toLower := by
    funext c
    apply forall_toLower (P := fun c d => d.toLower = c.toLower)
    · intro c
      rfl
    · decide
  rw [lowercase, lowercase, String.toList_ofList, List.map_map, hchar]

/-- The upper case of a text is that of its lower case. -/
theorem uppercase_lowercase (text : String) :
  uppercase (lowercase text) = uppercase text
  := by
  have hchar : uppercaseOf ∘ Char.toLower = uppercaseOf := by
    funext c
    apply forall_toLower (P := fun c d => uppercaseOf d = uppercaseOf c)
    · intro c
      rfl
    · decide +kernel
  rw [uppercase, uppercase, lowercase, String.toList_ofList, List.flatMap_map]
  congr 2

end Text

/-- A function is named in any case. -/
theorem UnaryOp.ofName?_lowercase (name : String) :
  ofName? (Text.lowercase name) = ofName? name
  := by
  rw [ofName?, ofName?, Text.lowercase_lowercase]

/-- An error with the name that it cites in lower case, if it cites an identifier. -/
def Error.lowercase : Error → Error
  | .operandExpected found => .operandExpected found.lowercase
  | .groupUnclosed found => .groupUnclosed found.lowercase
  | .leftover found => .leftover found.lowercase
  | error => error

/-! ### Reading -/

namespace Position

/-- Where an operand is due the case of a token does not matter. -/
theorem beginOperand_lowercase (frames : List Frame) (token : Token) :
  beginOperand frames token.lowercase = (beginOperand frames token).mapError Error.lowercase
  := by
  cases token with
  | identifier name =>
    simp only [Token.lowercase, beginOperand, UnaryOp.ofName?_lowercase, Text.uppercase_lowercase]
    cases (if primaryDue frames then none else UnaryOp.ofName? name) <;> rfl
  | operator symbol =>
    simp only [Token.lowercase, beginOperand]
    split
    · rfl
    · split
      · rfl
      · split <;> rfl
  | _ => rfl

/-- An error after an operand cites the token. -/
theorem refusal_lowercase (outside : List Frame) (found : Token) :
  refusal outside found.lowercase = (refusal outside found).lowercase
  := by
  unfold refusal
  split <;> rfl

/-- After an operand the case of a token does not matter. -/
theorem continueOperand_lowercase (frames : List Frame) (operand : Expr) (token : Token) :
  continueOperand frames operand token.lowercase
    = (continueOperand frames operand token).mapError Error.lowercase
  := by
  have hrefusal : Except.error (refusal frames token.lowercase)
      = (Except.error (refusal frames token) : Except Error Position).mapError Error.lowercase := by
    rw [refusal_lowercase]
    rfl
  unfold continueOperand
  cases token with
  | operator symbol =>
    simp only [Token.lowercase]
    split
    · rfl
    · apply hrefusal
  | rightParen =>
    simp only [Token.lowercase]
    split
    · rfl
    · apply hrefusal
  | _ => apply hrefusal

/-- The case of a token does not matter. -/
theorem step_lowercase (position : Position) (token : Token) :
  position.step token.lowercase = (position.step token).mapError Error.lowercase
  := by
  unfold step
  split
  · apply beginOperand_lowercase
  · apply continueOperand_lowercase

/-- The error at the end of the input cites no name. -/
theorem finish_lowercase (position : Position) :
  position.finish.mapError Error.lowercase = position.finish
  := by
  unfold finish
  split
  · rfl
  · split
    · rfl
    · rw [Except.mapError, ← refusal_lowercase]
      rfl

/-- The end of the input is no identifier. -/
theorem lowercase_eq_endOfInput_iff (token : Token) :
  token.lowercase = .endOfInput ↔ token = .endOfInput
  := by
  cases token <;> simp [Token.lowercase]

/-- Reading tokens in lower case ends as reading the tokens does. -/
theorem run_lowercase (position : Position) (tokens : List Token) :
  (position.run (tokens.map Token.lowercase)).1
    = (position.run tokens).1.mapError Error.lowercase
  := by
  induction tokens generalizing position with
  | nil => rw [List.map_nil, run, finish_lowercase]
  | cons token rest ih =>
    rw [List.map_cons, run, run, step_lowercase]
    simp only [lowercase_eq_endOfInput_iff]
    split
    · rw [finish_lowercase]
    · cases position.step token with
      | ok next => apply ih
      | error error => rfl

end Position

/-! ### Texts -/

/-- Reading begins with the same tokens, but for their case. -/
theorem Cursor.ofTokens_map_lowercase (tokens : List Token) :
  (ofTokens (tokens.map Token.lowercase)).tokens
    = (ofTokens tokens).tokens.map Token.lowercase
  := by
  have hlast : (tokens.map Token.lowercase).getLast? = some .endOfInput ↔
      tokens.getLast? = some .endOfInput := by
    simp [List.getLast?_map, Position.lowercase_eq_endOfInput_iff]
  simp only [ofTokens, hlast]
  split
  · rw [List.map_dropLast]
  · rfl

/-- A lexical error cites no identifier. -/
theorem Error.lowercase_of_kind {error : Error} (h : error.kind = .lexical) :
  error.lowercase = error
  := by
  cases error <;> first | rfl | cases h

/-- A text in lower case spells the expression that the text spells, or fails with the same
error in lower case. -/
theorem parse_lowercase (text : String) :
  parse (Text.lowercase text) = (parse text).mapError Error.lowercase
  := by
  have hblank : (Text.lowercase text).toList.all Text.isBlank = text.toList.all Text.isBlank := by
    have hclass : Text.isBlank ∘ Char.toLower = Text.isBlank := by
      funext c
      apply (class_toLower c).1
    rw [Text.lowercase, String.toList_ofList, List.all_map, hclass]
  rw [parse, parse, hblank, tokenize_lowercase]
  split
  · rfl
  · cases htokens : tokenize text with
    | error error =>
      have hlower := Error.lowercase_of_kind (kind_of_tokenize htokens)
      simp only [Except.map, bind, Except.bind, Except.mapError, hlower]
    | ok tokens =>
      simp only [Except.map, bind, Except.bind, Cursor.parse, Cursor.ofTokens_map_lowercase,
        Position.run_lowercase]

/-- Texts that differ in the case of the letters `A` to `Z` alone spell the same expression, and
have the same value or error in every mode, or both fail with errors that differ in the case of a
name alone. -/
theorem parse_of_lowercase_eq {s t : String} (h : Text.lowercase s = Text.lowercase t) :
  (∀ e : Expr, parse s = .ok e ↔ parse t = .ok e) ∧
  (∀ (e : Expr) (mode : AngleMode), parse s = .ok e →
    Evaluator.evaluateText { mode } s = Evaluator.evaluateText { mode } t) ∧
  ∀ error : Error, parse s = .error error →
    ∃ error' : Error, parse t = .error error' ∧ error.lowercase = error'.lowercase
  := by
  have hparse : (parse s).mapError Error.lowercase = (parse t).mapError Error.lowercase := by
    rw [← parse_lowercase, ← parse_lowercase, h]
  cases hs : parse s with
  | ok e =>
    cases ht : parse t with
    | ok e' =>
      rw [hs, ht] at hparse
      cases hparse
      refine ⟨fun _ => Iff.rfl, ?_, ?_⟩
      · intro _ mode _
        rw [Evaluator.evaluateText, Evaluator.evaluateText, hs, ht]
      · intro error herror
        cases herror
    | error error' =>
      rw [hs, ht] at hparse
      cases hparse
  | error error =>
    cases ht : parse t with
    | ok e' =>
      rw [hs, ht] at hparse
      cases hparse
    | error error' =>
      rw [hs, ht] at hparse
      refine ⟨?_, ?_, ?_⟩
      · intro e
        constructor <;> intro he <;> cases he
      · intro e mode he
        cases he
      · intro _ herror
        cases herror
        use error', rfl, Except.error.inj hparse

/-- A sine of a constant has one tree and one value in any case. -/
theorem parse_of_lowercase_eq_sine :
  Text.lowercase "Sin(pI)" = Text.lowercase "sIN(Pi)" ∧
    parse "Sin(pI)" = .ok (.unary (.circular .sin) (.variable "PI")) ∧
    (parse "sIN(Pi)" = .ok (.unary (.circular .sin) (.variable "PI")) ∧
      Evaluator.evaluateText { mode := .degrees } "Sin(pI)"
        = Evaluator.evaluateText { mode := .degrees } "sIN(Pi)")
  := by
  have hcase : Text.lowercase "Sin(pI)" = Text.lowercase "sIN(Pi)" := by decide
  have htree : parse "Sin(pI)" = .ok (.unary (.circular .sin) (.variable "PI")) := by
    decide +kernel
  obtain ⟨htrees, hvalues, -⟩ := parse_of_lowercase_eq hcase
  exact ⟨hcase, htree, (htrees _).mp htree, hvalues _ _ htree⟩

end Calculator
