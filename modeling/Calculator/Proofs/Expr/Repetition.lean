import Calculator.Proofs.Expr.Refusal

/-!
# Reading again

A cursor can be read from any number of times.  Each reading goes forward, token by token, and
stops at the latest on the end of the input; a list of tokens may contain that in the middle, and
what stands behind it is never seen (`Cursor.parses_beforeEnd`).

* `Position.exists_goesForward_run`: every token that a run takes is one advance from a token other
  than the end of the input, so that there are at most as many as tokens are left
  (`Cursor.GoesForward.le`).
* `Position.current_of_run_ok` and `Position.found?_of_run_error`: where a run stops.
* `Cursor.parses_of_parse_eq`: a reading that leaves the cursor where it was is repeated for ever.
-/

namespace Calculator

/-- The token that a syntax error is about. -/
def Error.found? : Error → Option Token
  | .operandExpected found | .groupUnclosed found | .leftover found => some found
  | _ => none

/-! ### The first end of the input -/

/-- The tokens before the first end of the input. -/
def Token.beforeEnd (ts : List Token) : List Token :=
  ts.takeWhile (· ≠ .endOfInput)

/-- Any other token comes before the end of the input. -/
theorem Token.beforeEnd_cons {t : Token} (h : t ≠ .endOfInput) (ts : List Token) :
  beforeEnd (t :: ts) = t :: beforeEnd ts
  := by
  rw [beforeEnd, List.takeWhile_cons, if_pos (decide_eq_true h)]
  rfl

/-- The end of the input that closes a list changes nothing. -/
theorem Token.beforeEnd_append_endOfInput (ts : List Token) :
  beforeEnd (ts ++ [.endOfInput]) = beforeEnd ts
  := by
  induction ts with
  | nil => rfl
  | cons t ts ih =>
    by_cases hend : t = .endOfInput
    · rw [hend]
      rfl
    · rw [List.cons_append, beforeEnd_cons hend, beforeEnd_cons hend, ih]

namespace Cursor

/-! ### Going forward -/

/-- Whether some number of advances lead from one cursor to another, each of them from a token
other than the end of the input. -/
inductive GoesForward : Cursor → Nat → Cursor → Prop where
  | stay (cursor : Cursor) : GoesForward cursor 0 cursor
  | advance {cursor next : Cursor} {count : Nat} :
      cursor.current ≠ .endOfInput → GoesForward cursor.advance count next →
      GoesForward cursor (count + 1) next

/-- Advances one after the other. -/
theorem GoesForward.trans {cursor between next : Cursor} {m n : Nat}
    (h : GoesForward cursor m between) (h' : GoesForward between n next) :
  GoesForward cursor (m + n) next
  := by
  induction h with
  | stay cursor =>
    rw [Nat.zero_add]
    apply h'
  | @advance cursor _ count hne _ ih =>
    rw [Nat.add_right_comm]
    apply GoesForward.advance hne (ih h')

/-- There are at most as many advances as tokens before the end of the input. -/
theorem GoesForward.le {cursor next : Cursor} {count : Nat} (h : GoesForward cursor count next) :
  count ≤ (Token.beforeEnd cursor.tokens).length
  := by
  induction h with
  | stay cursor => apply Nat.zero_le
  | @advance cursor next count hne _ ih =>
    obtain ⟨tokens⟩ := cursor
    cases tokens with
    | nil => cases hne rfl
    | cons t ts =>
      have ht : t ≠ .endOfInput := hne
      rw [Token.beforeEnd_cons ht, List.length_cons]
      apply Nat.succ_le_succ ih

end Cursor

/-! ### Where a run stops -/

namespace Position

/-- What is reported at a position is about the token that was found. -/
theorem found?_refusalAt (position : Position) (found : Token) :
  (position.refusalAt found).found? = some found
  := by
  unfold refusalAt refusal
  split
  · rfl
  · split <;> rfl

/-- Each token that a run takes is an advance from a token other than the end of the input. -/
theorem exists_goesForward_run (position : Position) (us : List Token) :
  ∃ count : Nat, Cursor.GoesForward ⟨us⟩ count ⟨(position.run us).2⟩
  := by
  induction us generalizing position with
  | nil => use 0, .stay _
  | cons t us ih =>
    rw [run]
    by_cases hend : t = .endOfInput
    · rw [if_pos hend]
      use 0, .stay _
    · rw [if_neg hend]
      cases position.step t with
      | error error => use 0, .stay _
      | ok next =>
        obtain ⟨count, hforward⟩ := ih next
        use count + 1, .advance hend hforward

/-- A run that answers a tree stops on the end of the input. -/
theorem current_of_run_ok {e : Expr} (us : List Token) (position : Position)
    (h : (position.run us).1 = .ok e) :
  (Cursor.mk (position.run us).2).current = .endOfInput
  := by
  induction us generalizing position with
  | nil => rfl
  | cons t us ih =>
    rw [run] at h ⊢
    by_cases hend : t = .endOfInput
    · rw [if_pos hend]
      apply hend
    · rw [if_neg hend] at h ⊢
      cases hstep : position.step t with
      | error error =>
        rw [hstep] at h
        cases h
      | ok next =>
        rw [hstep] at h
        apply ih next h

/-- A run that fails stops on the token that its error is about. -/
theorem found?_of_run_error {error : Error} (us : List Token) (position : Position)
    (h : (position.run us).1 = .error error) :
  error.found? = some (Cursor.mk (position.run us).2).current
  := by
  induction us generalizing position with
  | nil =>
    rw [(Stops.atEnd h).error_eq]
    apply found?_refusalAt
  | cons t us ih =>
    rw [run] at h ⊢
    by_cases hend : t = .endOfInput
    · rw [if_pos hend] at h ⊢
      rw [(Stops.atEnd h).error_eq, found?_refusalAt]
      exact congrArg some hend.symm
    · rw [if_neg hend] at h ⊢
      cases hstep : position.step t with
      | error error' =>
        rw [hstep] at h
        cases h
        have hstop : Stops position (t :: us) error := .atToken hend hstep
        rw [hstop.error_eq]
        apply found?_refusalAt
      | ok next =>
        rw [hstep] at h
        apply ih next h

/-- A run sees nothing behind the first end of the input. -/
theorem run_beforeEnd (us : List Token) (position : Position) :
  position.run (Token.beforeEnd us)
    = ((position.run us).1, Token.beforeEnd (position.run us).2)
  := by
  induction us generalizing position with
  | nil => rfl
  | cons t us ih =>
    by_cases hend : t = .endOfInput
    · rw [hend]
      rfl
    · rw [Token.beforeEnd_cons hend, run, run, if_neg hend, if_neg hend]
      cases position.step t with
      | error error => exact congrArg (Prod.mk _) (Token.beforeEnd_cons hend us).symm
      | ok next => apply ih next

end Position

/-! ### Readings -/

namespace Cursor

/-- The cursor after a number of readings, each of which goes on where the last stopped. -/
def afterParses (cursor : Cursor) : Nat → Cursor
  | 0 => cursor
  | count + 1 => cursor.parse.2.afterParses count

/-- The answers of some readings, and of those after them. -/
theorem parses_add (cursor : Cursor) (count more : Nat) :
  cursor.parses (count + more) = cursor.parses count ++ (cursor.afterParses count).parses more
  := by
  induction count generalizing cursor with
  | zero =>
    rw [Nat.zero_add]
    rfl
  | succ count ih =>
    rw [Nat.add_right_comm]
    exact congrArg (cursor.parse.1 :: ·) (ih cursor.parse.2)

/-- Readings go forward. -/
theorem exists_goesForward_afterParses (cursor : Cursor) (count : Nat) :
  ∃ taken : Nat, GoesForward cursor taken (cursor.afterParses count)
  := by
  induction count generalizing cursor with
  | zero => use 0, .stay cursor
  | succ count ih =>
    obtain ⟨first, hfirst⟩ := Position.start.exists_goesForward_run cursor.tokens
    obtain ⟨others, hothers⟩ := ih cursor.parse.2
    use first + others, hfirst.trans hothers

/-- What is read depends on the tokens before the first end of the input. -/
theorem parses_beforeEnd (cursor : Cursor) (count : Nat) :
  (mk (Token.beforeEnd cursor.tokens)).parses count = cursor.parses count
  := by
  induction count generalizing cursor with
  | zero => rfl
  | succ count ih =>
    have hparse : (mk (Token.beforeEnd cursor.tokens)).parse
        = (cursor.parse.1, ⟨Token.beforeEnd cursor.parse.2.tokens⟩) := by
      rw [parse, Position.run_beforeEnd]
      rfl
    rw [parses, parses, hparse]
    exact congrArg (cursor.parse.1 :: ·) (ih cursor.parse.2)

/-- What stands before the first end of the input in a list is before the cursor on its first
token. -/
theorem beforeEnd_ofTokens (ts : List Token) :
  Token.beforeEnd (ofTokens ts).tokens = Token.beforeEnd ts
  := by
  rw [ofTokens]
  split
  · rename_i hlast
    obtain ⟨before, rfl⟩ := List.getLast?_eq_some_iff.mp hlast
    rw [List.dropLast_concat, Token.beforeEnd_append_endOfInput]
  · rfl

/-- A reading that leaves the cursor where it was is repeated for ever. -/
theorem parses_of_parse_eq {cursor : Cursor} (h : cursor.parse.2 = cursor) (count : Nat) :
  cursor.parses count = List.replicate count cursor.parse.1
  := by
  induction count with
  | zero => rfl
  | succ count ih =>
    rw [List.replicate_succ, ← ih, parses]
    simp only [h]

/-- On the end of the input an operand is missing. -/
theorem parse_of_current {cursor : Cursor} (h : cursor.current = .endOfInput) :
  cursor.parse = (.error (.operandExpected .endOfInput), cursor)
  := by
  obtain ⟨tokens⟩ := cursor
  cases tokens with
  | nil => rfl
  | cons t ts =>
    obtain rfl : t = .endOfInput := h
    rfl

/-- What one reading does to a cursor, and what the readings after it answer. -/
structure ReadsOn (cursor : Cursor) : Prop where
  /-- It takes no more tokens than there are before the end of the input. -/
  forward : ∃ taken ≤ (Token.beforeEnd cursor.tokens).length,
    GoesForward cursor taken cursor.parse.2
  /-- An expression ends on the end of the input, and no other one follows. -/
  ok : ∀ e : Expr, cursor.parse.1 = .ok e → cursor.parse.2.current = .endOfInput ∧
    ∀ more : Nat, cursor.parse.2.parses more
      = List.replicate more (.error (.operandExpected .endOfInput))
  /-- An error is about the token on which reading stopped, and stays the same if this was the
  first one. -/
  error : ∀ error : Error, cursor.parse.1 = .error error →
    error.found? = some cursor.parse.2.current ∧
    (cursor.parse.2 = cursor →
      ∀ more : Nat, cursor.parse.2.parses more = List.replicate more (.error error))

/-- Every cursor can be read from. -/
theorem readsOn (cursor : Cursor) :
  cursor.ReadsOn
  := by
  constructor
  · obtain ⟨taken, hforward⟩ := Position.start.exists_goesForward_run cursor.tokens
    use taken, hforward.le, hforward
  · intro e h
    have hcurrent : cursor.parse.2.current = .endOfInput :=
      Position.current_of_run_ok cursor.tokens .start h
    have hparse := parse_of_current hcurrent
    use hcurrent
    intro more
    have hstays : cursor.parse.2.parse.2 = cursor.parse.2 := by rw [hparse]
    rw [parses_of_parse_eq hstays, hparse]
  · intro error h
    use Position.found?_of_run_error cursor.tokens .start h
    intro hstays more
    rw [hstays, parses_of_parse_eq hstays, h]

/-- A list of tokens, with the end of the input anywhere in it, can be read from again and again.
The answers depend only on the tokens before the first end of the input.  After any number of
readings the cursor has gone forward by no more than these tokens, and the next reading goes on from
there. -/
theorem parses_again (ts : List Token) :
  (∀ us : List Token, Token.beforeEnd us = Token.beforeEnd ts →
    ∀ count : Nat, (ofTokens us).parses count = (ofTokens ts).parses count) ∧
  ∀ count : Nat,
    let cursor := (ofTokens ts).afterParses count
    (∃ taken ≤ (Token.beforeEnd ts).length, GoesForward (ofTokens ts) taken cursor) ∧
    (∀ more : Nat, (ofTokens ts).parses (count + more)
      = (ofTokens ts).parses count ++ cursor.parses more) ∧
    cursor.ReadsOn
  := by
  constructor
  · intro us h count
    rw [← parses_beforeEnd, beforeEnd_ofTokens, h, ← beforeEnd_ofTokens, parses_beforeEnd]
  · intro count cursor
    obtain ⟨taken, hforward⟩ := (ofTokens ts).exists_goesForward_afterParses count
    have hle := hforward.le
    rw [beforeEnd_ofTokens] at hle
    refine ⟨⟨taken, hle, hforward⟩, parses_add _ count, readsOn cursor⟩

/-- Behind `1 + 2` an operand is missing for ever, whatever stands behind the end of the input, and
so it is on a closing parenthesis. -/
theorem parses_again_sum :
  let sum : List Token := [.number 1.0, .operator '+', .number 2.0]
  let ts : List Token := sum ++ [.endOfInput, .rightParen]
  let closing : List Token := [.rightParen, .number 1.0]
  Token.beforeEnd sum = Token.beforeEnd ts ∧
    (ofTokens sum).parses 4 = (ofTokens ts).parses 4 ∧
    (ofTokens ts).parse.1 = .ok (.binary (.number 1.0) (.operator .add) (.number 2.0)) ∧
    (ofTokens ts).parse.2.parses 3 = List.replicate 3 (.error (.operandExpected .endOfInput)) ∧
    (ofTokens closing).parse = (.error (.operandExpected .rightParen), ofTokens closing) ∧
    (ofTokens closing).parse.2.parses 3 = List.replicate 3 (.error (.operandExpected .rightParen))
  := by
  intro sum ts closing
  have hsum : Token.beforeEnd sum = Token.beforeEnd ts := by rfl
  have hok : (ofTokens ts).parse.1
      = .ok (.binary (.number 1.0) (.operator .add) (.number 2.0)) := by rfl
  have herror : (ofTokens closing).parse
      = (.error (.operandExpected .rightParen), ofTokens closing) := by rfl
  refine ⟨hsum, (parses_again ts).1 sum hsum 4, hok, ?_, herror, ?_⟩
  · apply (((parses_again ts).2 0).2.2.ok _ hok).2
  · apply (((parses_again closing).2 0).2.2.error _ rfl).2
    apply congrArg Prod.snd herror

end Cursor

end Calculator
