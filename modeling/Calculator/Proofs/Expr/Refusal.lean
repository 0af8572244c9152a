import Calculator.Proofs.Expr.Acceptance
import Calculator.Proofs.Token.LexicalGrammar

/-!
# Where reading stops

Reading stops at the first token that no expression can have at its place.  The tokens before
it begin an expression, and no expression begins with these tokens and the one that is refused.
What is reported depends on the tokens before it alone: they may be an expression, or what
stands after their innermost open parenthesis may be one, or an operand is due
(`parse_error_firstOffence`).

* `Position.steps` is a run over tokens that are all taken, and a run that fails consists of
  such steps and the refusal of one token (`Position.exists_stops_of_run`).
* `Position.Opens.exists_closing`: from every position there is a way to the end of an
  expression.
* `Position.Reads.finish_cases`: the three kinds of positions, told apart by what was read.
-/

namespace Calculator

open Grammar

/-! ### Parentheses -/

namespace Grammar

/-- The lists of tokens in which every parenthesis has its partner. -/
inductive Matched : List Token → Prop where
  | nil : Matched []
  | token {t : Token} : t ≠ .leftParen → t ≠ .rightParen → Matched [t]
  | append {ts us : List Token} : Matched ts → Matched us → Matched (ts ++ us)
  | group {ts : List Token} : Matched ts → Matched (.leftParen :: ts ++ [.rightParen])

/-- A token that is no parenthesis may stand in front. -/
theorem Matched.cons {t : Token} {ts : List Token} (hleft : t ≠ .leftParen)
    (hright : t ≠ .rightParen) (h : Matched ts) :
  Matched (t :: ts)
  := .append (.token hleft hright) h

/-- In a phrase every parenthesis has its partner. -/
theorem Derives.matched {category : Category} {ts : List Token} {e : Expr}
    (h : Derives category ts e) :
  Matched ts
  := by
  induction h with
  | operand _ ih | primary _ _ ih => apply ih
  | join _ _ _ ihleft ihright =>
    apply ihleft.append (ihright.cons Token.noConfusion Token.noConfusion)
  | minus _ ih | plus _ ih | apply _ _ ih => apply ih.cons Token.noConfusion Token.noConfusion
  | number value | name text => apply Matched.token Token.noConfusion Token.noConfusion
  | group _ ih => apply ih.group

/-- Whether tokens are an expression. -/
def IsExpression (ts : List Token) : Prop :=
  ∃ e : Expr, Derives (.sequence .expression) ts e

/-- Whether a parenthesis is open in tokens and those after the innermost one are an
expression. -/
def EndsInGroup (ts : List Token) : Prop :=
  ∃ outside inside : List Token,
    ts = outside ++ .leftParen :: inside ∧ Matched inside ∧ IsExpression inside

end Grammar

/-! ### Steps -/

namespace Position

open Calculator.Frame

/-- The position after tokens, if all of them are taken. -/
def steps (position : Position) (ts : List Token) : Except Error Position :=
  ts.foldlM step position

/-- Steps one after the other. -/
theorem steps_append {position next : Position} {ts us : List Token} :
  position.steps (ts ++ us) = .ok next ↔
    ∃ between : Position, position.steps ts = .ok between ∧ between.steps us = .ok next
  := by
  rw [steps, List.foldlM_append]
  cases h : position.steps ts with
  | error error =>
    rw [steps] at h
    simp [h, Bind.bind, Except.bind]
  | ok between =>
    rw [steps] at h
    simp [h, Bind.bind, Except.bind, steps]

/-- The first step and those after it. -/
theorem steps_cons {position next : Position} {t : Token} {ts : List Token} :
  position.steps (t :: ts) = .ok next ↔
    ∃ between : Position, position.step t = .ok between ∧ between.steps ts = .ok next
  := by
  rw [steps, List.foldlM_cons]
  cases h : position.step t with
  | error error => simp [Bind.bind, Except.bind]
  | ok between => simp [Bind.bind, Except.bind, steps]

/-- A run over tokens that are taken goes on from the position after them. -/
theorem run_append {ts : List Token} (hend : Token.endOfInput ∉ ts) (us : List Token) :
  ∀ {position next : Position}, position.steps ts = .ok next →
    position.run (ts ++ us) = next.run us
  := by
  induction ts with
  | nil =>
    intro position next h
    cases h
    rfl
  | cons t ts ih =>
    intro position next h
    obtain ⟨hne, hend⟩ := List.ne_and_not_mem_of_not_mem_cons hend
    obtain ⟨between, hstep, hsteps⟩ := steps_cons.mp h
    rw [List.cons_append, run_cons (Ne.symm hne) hstep, ih hend hsteps]

/-- Whether reading stops at once, on the first of some tokens or at the end of the input. -/
inductive Stops : Position → List Token → Error → Prop where
  | atEnd {position : Position} {error : Error} :
      position.finish = .error error → Stops position [] error
  | atToken {position : Position} {t : Token} {us : List Token} {error : Error} :
      t ≠ .endOfInput → position.step t = .error error → Stops position (t :: us) error

/-- A run that fails takes some tokens, and then stops at once. -/
theorem exists_stops_of_run {error : Error} {rest : List Token} :
  ∀ {us : List Token} {position : Position}, Token.endOfInput ∉ us →
    position.run us = (.error error, rest) →
    ∃ (before : List Token) (next : Position),
      us = before ++ rest ∧ position.steps before = .ok next ∧ Stops next rest error
  | [], position, _, h => by
      obtain ⟨hfinish, rfl⟩ := Prod.mk.inj h
      use [], position, rfl, rfl
      apply Stops.atEnd hfinish
  | t :: us, position, hend, h => by
      obtain ⟨hne, hend⟩ := List.ne_and_not_mem_of_not_mem_cons hend
      cases hstep : position.step t with
      | error error' =>
        rw [run, if_neg (Ne.symm hne), hstep] at h
        cases h
        use [], position, rfl, rfl
        apply Stops.atToken (Ne.symm hne) hstep
      | ok next =>
        rw [run_cons (Ne.symm hne) hstep] at h
        obtain ⟨before, last, rfl, hsteps, hstops⟩ := exists_stops_of_run hend h
        use t :: before, last, rfl, steps_cons.mpr ⟨next, hstep, hsteps⟩

/-- Steps keep a position explained. -/
theorem Explains.steps {us : List Token} :
  ∀ {ts : List Token} {position next : Position}, Explains ts position →
    position.steps us = .ok next → Explains (ts ++ us) next
  := by
  induction us with
  | nil =>
    intro ts position next hposition h
    cases h
    rw [List.append_nil]
    apply hposition
  | cons u us ih =>
    intro ts position next hposition h
    obtain ⟨between, hstep, hsteps⟩ := steps_cons.mp h
    rw [List.append_cons]
    apply ih (hposition.step hstep) hsteps

/-! ### What is refused -/

/-- Where an operand is due, only the token is reported. -/
theorem beginOperand_eq_error {frames : List Frame} {t : Token} {error : Error}
    (h : beginOperand frames t = .error error) :
  error = .operandExpected t
  := by
  cases t with
  | number | leftParen => cases h
  | rightParen | endOfInput =>
    cases h
    rfl
  | identifier name =>
    simp only [beginOperand] at h
    split at h <;> cases h
  | operator symbol =>
    simp only [beginOperand] at h
    split at h
    · cases h
      rfl
    · split at h
      · cases h
      · split at h
        · cases h
        · cases h
          rfl

/-- After an operand the token is reported, and whether a group is open. -/
theorem continueOperand_eq_error {frames : List Frame} {operand : Expr} {t : Token} {error : Error}
    (h : continueOperand frames operand t = .error error) :
  error = refusal frames t
  := by
  cases t with
  | operator symbol =>
    unfold continueOperand at h
    simp only at h
    split at h
    · cases h
    · cases h
      rfl
  | rightParen =>
    unfold continueOperand at h
    simp only at h
    split at h
    · cases h
    · cases h
      rfl
  | number | identifier | leftParen | endOfInput =>
    cases h
    rfl

/-- The error for the token on which reading stops, by the position before it. -/
def refusalAt (position : Position) (found : Token) : Error :=
  match position.operand with
  | none => .operandExpected found
  | some _ => refusal position.frames found

/-- What is reported where reading stops. -/
theorem Stops.error_eq {position : Position} {rest : List Token} {error : Error}
    (h : Stops position rest error) :
  error = position.refusalAt (rest.headD .endOfInput)
  := by
  obtain ⟨frames, operand⟩ := position
  cases h with
  | atEnd h =>
    cases operand with
    | none =>
      cases h
      rfl
    | some operand =>
      unfold finish at h
      simp only at h
      split at h
      · cases h
      · cases h
        rfl
  | atToken _ h =>
    cases operand with
    | none => apply beginOperand_eq_error h
    | some operand => apply continueOperand_eq_error h

/-- Reading stops there whatever tokens follow. -/
theorem Stops.run_eq {position : Position} {rest : List Token} {error : Error}
    (h : Stops position rest error) (us : List Token) :
  (position.run (rest.headD .endOfInput :: us)).1 = .error error
  := by
  cases h with
  | atEnd h => rw [List.headD_nil, run, if_pos rfl, h]
  | atToken hne h => rw [List.headD_cons, run, if_neg hne, h]

/-! ### From every position to the end -/

/-- Every operand can be closed: its groups can be, from the innermost outward. -/
theorem Opens.exists_closing {high : Nat} {ts us : List Token} {frames : List Frame} {e : Expr}
    (h : Opens ts frames) (hframes : Holds high frames) (he : Derives (.atLevel high) us e) :
  ∃ vs : List Token, IsExpression (ts ++ us ++ vs)
  := by
  induction h generalizing us high e with
  | start =>
    use [], e
    rw [List.append_nil]
    apply he.of_le (Nat.zero_le high)
  | @group ts vs frames signs hopen hsigns ih =>
    have hgroup : Derives .primary (.leftParen :: us ++ [.rightParen]) e :=
      .group (he.of_le (Nat.zero_le high))
    obtain ⟨e', -, hunary⟩ := hsigns.absorb_primary hopen.holds hgroup (fun _ => rfl)
    obtain ⟨ws, hws⟩ := ih hopen.holds hunary
    use .rightParen :: ws
    simpa using hws
  | @after ts vs frames left op hopen hholds hleft ih =>
    have hjoin := Derives.join_level hleft (he.of_le (Nat.succ_le_of_lt hframes))
    obtain ⟨ws, hws⟩ := ih hholds hjoin
    use ws
    simpa using hws

/-- From every position there is a way to the end of an expression. -/
theorem Explains.exists_closing {ts : List Token} {position : Position}
    (h : Explains ts position) :
  ∃ us : List Token, IsExpression (ts ++ us)
  := by
  cases h with
  | @due ts us frames signs hopen hsigns =>
    obtain ⟨e, -, hunary⟩ := hsigns.absorb_primary hopen.holds (.number 0.0) (fun _ => rfl)
    obtain ⟨vs, hvs⟩ := hopen.exists_closing hopen.holds hunary
    use .number 0.0 :: vs
    simpa using hvs
  | done hopen he => apply hopen.exists_closing hopen.holds he

/-! ### Three kinds of positions -/

/-- Folding keeps the groups that are open. -/
theorem group_mem_fold (level : Nat) :
  ∀ (frames : List Frame) (e : Expr), .group ∈ (fold level frames e).1 ↔ .group ∈ frames
  | [], _ | .group :: _, _ | .negate :: _, _ | .apply _ :: _, _ => Iff.rfl
  | .after left op :: frames, e => by
      rw [fold]
      split
      · rw [group_mem_fold]
        simp
      · rfl

/-- Tokens that are all taken from the start on. -/
structure Reads (ts : List Token) (position : Position) : Prop where
  steps : start.steps ts = .ok position
  endOfInput_notMem : Token.endOfInput ∉ ts

namespace Reads

variable {ts : List Token} {position : Position}

/-- A position that was reached is explained by the tokens before it. -/
theorem explains (h : Reads ts position) :
  Explains ts position
  := Explains.steps (.due .start .nil) h.steps

/-- A run goes on from the position that was reached. -/
theorem run_append (h : Reads ts position) (us : List Token) :
  start.run (ts ++ us) = position.run us
  := Position.run_append h.endOfInput_notMem us h.steps

/-- A position where the input may end is one after an expression. -/
theorem finish_eq_ok_iff (h : Reads ts position) {e : Expr} :
  position.finish = .ok e ↔ Derives (.sequence .expression) ts e
  := by
  constructor
  · apply h.explains.finish
  · intro he
    have hrun := h.run_append []
    rw [List.append_nil, he.run_start] at hrun
    apply (Prod.mk.inj hrun).1.symm

/-- After an open parenthesis and an expression, the parenthesis should be closed. -/
theorem finish_of_endsInGroup (h : Reads ts position) (hgroup : EndsInGroup ts) :
  position.finish = .error (.groupUnclosed .endOfInput)
  := by
  obtain ⟨hsteps, hend⟩ := h
  obtain ⟨outside, inside, rfl, -, e, he⟩ := hgroup
  obtain ⟨between, -, hinside⟩ := steps_append.mp hsteps
  obtain ⟨opened, hopened, hinside⟩ := steps_cons.mp hinside
  have hgroup : opened = ⟨.group :: between.frames, none⟩ := by
    unfold step at hopened
    split at hopened
    · cases hopened
      rfl
    · cases hopened
  obtain ⟨inner, operand, hrun, hfold⟩ := he.carries (.group :: between.frames) [] trivial
  have hfold := hfold 0 (Nat.zero_le _)
  have hmem : .group ∈ inner := by
    rw [← group_mem_fold 0 _ operand, hfold]
    apply List.mem_cons_self
  rw [← hgroup, Position.run_append he.endOfInput_notMem [] hinside] at hrun
  have hfinish := (Prod.mk.inj hrun).1
  rw [hfinish, finish]
  simp only [hfold, fold, refusal, if_pos hmem]

/-- The three kinds of positions: an operand is due, or one was finished outside all groups, or
inside a group. -/
theorem finish_cases (h : Reads ts position) :
  (position.finish = .error (.operandExpected .endOfInput) ∧
    ∀ found : Token, position.refusalAt found = .operandExpected found) ∨
  (IsExpression ts ∧ ∀ found : Token, position.refusalAt found = .leftover found) ∨
  (EndsInGroup ts ∧ ∀ found : Token, position.refusalAt found = .groupUnclosed found)
  := by
  cases h.explains with
  | due =>
    left
    use rfl
    intro found
    rfl
  | @done ts us frames e hopen he =>
    right
    obtain ⟨ts', us', frames', e', hfold, hopen', hholds, he', heq⟩ :=
      hopen.fold (Nat.zero_le 4) hopen.holds he
    have hmem := group_mem_fold 0 frames e
    rw [hfold] at hmem
    rw [heq]
    cases hopen' with
    | start =>
      left
      use ⟨e', he'⟩
      intro found
      apply if_neg
      intro hgroup
      cases hmem.mpr hgroup
    | @group ts₀ us₀ frames₀ signs₀ hopen₀ hsigns₀ =>
      right
      constructor
      · use ts₀ ++ us₀, us', by simp, he'.matched, e'
        apply he'
      · intro found
        apply if_pos (hmem.mp List.mem_cons_self)
    | after => cases hholds

/-- The three kinds of positions by the tokens before them alone. -/
theorem refusal_cases (h : Reads ts position) :
  (¬EndsInGroup ts ∧ ¬IsExpression ts ∧
    ∀ found : Token, position.refusalAt found = .operandExpected found) ∨
  (¬EndsInGroup ts ∧ IsExpression ts ∧
    ∀ found : Token, position.refusalAt found = .leftover found) ∨
  (EndsInGroup ts ∧ ¬IsExpression ts ∧
    ∀ found : Token, position.refusalAt found = .groupUnclosed found)
  := by
  have hgroup : EndsInGroup ts → ¬IsExpression ts := by
    rintro hgroup ⟨e, he⟩
    cases (h.finish_eq_ok_iff.mpr he).symm.trans (h.finish_of_endsInGroup hgroup)
  rcases h.finish_cases with ⟨hfinish, hrefusal⟩ | ⟨hexpression, hrefusal⟩ | ⟨hends, hrefusal⟩
  · left
    refine ⟨?_, ?_, hrefusal⟩
    · intro hends
      cases (h.finish_of_endsInGroup hends).symm.trans hfinish
    · rintro ⟨e, he⟩
      cases (h.finish_eq_ok_iff.mpr he).symm.trans hfinish
  · right
    left
    use fun hends => hgroup hends hexpression, hexpression
  · right
    right
    use hends, hgroup hends

end Reads

end Position

/-! ### The first offence -/

namespace Cursor

/-- Whether reading a list of tokens gives a tree. -/
def Accepts (ts : List Token) : Prop :=
  ∃ e : Expr, (ofTokens ts).parse.1 = .ok e

/-- What is accepted is an expression. -/
theorem accepts_iff {ts : List Token} (h : Token.endOfInput ∉ ts) :
  Accepts ts ↔ IsExpression ts
  := exists_congr (parse_ofTokens h)

/-- A list of tokens is read up to a token in it, and on from there, unless the token is the
end of the input that closes the list. -/
theorem ofTokens_append_cons (ts : List Token) (t : Token) (us : List Token) :
  (t = .endOfInput ∧ ofTokens (ts ++ t :: us) = ⟨ts⟩) ∨
    ∃ vs : List Token, ofTokens (ts ++ t :: us) = ⟨ts ++ t :: vs⟩
  := by
  unfold ofTokens
  split
  · rename_i hlast
    cases us with
    | nil =>
      left
      rw [List.getLast?_concat] at hlast
      use Option.some.inj hlast
      rw [List.dropLast_concat]
    | cons u us =>
      right
      use (u :: us).dropLast
      rw [List.dropLast_append_of_ne_nil (List.cons_ne_nil _ _), List.dropLast_cons_of_ne_nil
        (List.cons_ne_nil _ _)]
  · right
    use us

end Cursor

/-- The messages that cite a token. -/
def Token.citations (found : Token) : List String :=
  ["expected number, identifier, or '(', found " ++ found.describe,
    "expected ')' to close the group, found " ++ found.describe,
    "did not expect " ++ found.describe ++ " after the expression"]

/-- What a syntax error says about the token on which reading stopped and the tokens before
it. -/
structure FirstOffence (before : List Token) (found : Token) (error : Error) : Prop where
  /-- The message of the error cites the token. -/
  cites : error.message ∈ found.citations
  /-- The tokens before it begin an expression. -/
  continues : ∃ us : List Token, Cursor.Accepts (before ++ us)
  /-- No expression begins with them and the token. -/
  refused : ∀ us : List Token, ¬Cursor.Accepts (before ++ found :: us)
  /-- If the token is the end of the input, they are no expression themselves. -/
  unfinished : found = .endOfInput → ¬Cursor.Accepts before
  groupUnclosed_iff : error = .groupUnclosed found ↔ EndsInGroup before
  leftover_iff : error = .leftover found ↔ IsExpression before
  operandExpected_iff : error = .operandExpected found ↔ ¬EndsInGroup before ∧ ¬IsExpression before

namespace Position

/-- Where reading stops, no expression begins with what was read and the next token. -/
theorem Stops.not_accepts {before rest : List Token} {position : Position} {error : Error}
    (h : Stops position rest error) (hreads : Reads before position) (us : List Token) :
  ¬Cursor.Accepts (before ++ rest.headD .endOfInput :: us)
  := by
  rintro ⟨e, he⟩
  rw [Cursor.parse] at he
  rcases Cursor.ofTokens_append_cons before (rest.headD .endOfInput) us with ⟨hfound, htokens⟩ |
    ⟨vs, htokens⟩
  · have hrun := hreads.run_append []
    rw [List.append_nil] at hrun
    simp only [htokens, hrun] at he
    have hstops := h.run_eq []
    rw [hfound, run, if_pos rfl] at hstops
    cases hstops.symm.trans he
  · simp only [htokens, hreads.run_append] at he
    cases (h.run_eq vs).symm.trans he

/-- The message of an error where reading stops cites the token. -/
theorem message_refusalAt_mem (position : Position) (found : Token) :
  (position.refusalAt found).message ∈ found.citations
  := by
  unfold refusalAt refusal
  split
  · apply List.mem_cons_self
  · split
    · apply List.mem_cons_of_mem
      apply List.mem_cons_self
    · apply List.mem_cons_of_mem
      apply List.mem_cons_of_mem
      apply List.mem_cons_self

/-- Where reading stops is the first offence. -/
theorem Stops.firstOffence {before rest : List Token} {position : Position} {error : Error}
    (h : Stops position rest error) (hreads : Reads before position) :
  FirstOffence before (rest.headD .endOfInput) error
  := by
  have hrefused := h.not_accepts hreads
  have hcontinues : ∃ us : List Token, Cursor.Accepts (before ++ us) := by
    obtain ⟨us, e, he⟩ := hreads.explains.exists_closing
    use us
    apply (Cursor.accepts_iff he.endOfInput_notMem).mpr ⟨e, he⟩
  rw [h.error_eq]
  generalize rest.headD .endOfInput = found at hrefused
  have hcites := message_refusalAt_mem position found
  have hunfinished : found = .endOfInput → ¬Cursor.Accepts before := by
    rintro rfl ⟨e, he⟩
    apply hrefused []
    use e
    rw [Cursor.ofTokens_append_endOfInput hreads.endOfInput_notMem]
    apply he
  rcases hreads.refusal_cases with ⟨hends, hexpression, hrefusal⟩ |
    ⟨hends, hexpression, hrefusal⟩ | ⟨hends, hexpression, hrefusal⟩
  all_goals
    rw [hrefusal] at hcites ⊢
    use hcites, hcontinues, hrefused, hunfinished
    all_goals simp [hends, hexpression]

end Position

/-! ### Texts -/

/-- A text that cannot be read as tokens is refused for that reason. -/
theorem parse_of_tokenize_error {text : String} {error : Error} (h : tokenize text = .error error) :
  parse text = .error error
  := by
  cases hblank : text.toList.all Text.isBlank with
  | true => cases (tokenize_of_blank hblank).symm.trans h
  | false =>
    simp only [parse, hblank, Bool.false_eq_true, if_false, h]
    rfl

/-- A text with a token is read as its tokens are. -/
theorem parse_of_tokenize {text : String} {tokens : List Token} (h : tokenize text = .ok tokens)
    (hne : tokens ≠ [.endOfInput]) :
  parse text = (Cursor.ofTokens tokens).parse.1
  := by
  cases hblank : text.toList.all Text.isBlank with
  | true =>
    rw [tokenize_of_blank hblank] at h
    cases hne (Except.ok.inj h).symm
  | false =>
    simp only [parse, hblank, Bool.false_eq_true, if_false, h]
    rfl

/-- A text without tokens is empty. -/
theorem parse_of_endOfInput {text : String} (h : tokenize text = .ok [.endOfInput]) :
  parse text = .error .emptyExpression
  := by
  have hblank : text.toList.all Text.isBlank = true := by
    apply List.all_eq_true.mpr
    apply areBlanks_of_tokenize h
  rw [parse, if_pos hblank]

/-- What is reported for the tokens of a text stands at the first offence. -/
theorem Cursor.exists_firstOffence {text : String} {tokens : List Token} {error : Error}
    {cursor : Cursor} (htokens : tokenize text = .ok tokens)
    (h : (Cursor.ofTokens tokens).parse = (.error error, cursor)) :
  ∃ before : List Token, tokens = before ++ (cursor.tokens ++ [.endOfInput]) ∧
    FirstOffence before cursor.current error
  := by
  obtain ⟨ts, rfl, hend⟩ := Place.tokens_eq_concat htokens
  obtain ⟨rest⟩ := cursor
  have hlast : ts.getLast? ≠ some .endOfInput := fun hlast => hend (List.mem_of_getLast? hlast)
  rw [ofTokens_append_endOfInput hend, ofTokens, if_neg hlast, parse] at h
  obtain ⟨herror, hrest⟩ := Prod.mk.inj h
  obtain ⟨before, position, rfl, hsteps, hstops⟩ :=
    Position.exists_stops_of_run hend (Prod.ext herror (congrArg Cursor.tokens hrest))
  have hbefore : Token.endOfInput ∉ before := fun hmem => hend (List.mem_append_left rest hmem)
  use before, List.append_assoc before rest _
  apply hstops.firstOffence ⟨hsteps, hbefore⟩

/-- An error at a token is a syntax error, and not the one for an empty text. -/
theorem FirstOffence.kind_eq {before : List Token} {found : Token} {error : Error}
    (h : FirstOffence before found error) :
  error.kind = .syntactic ∧ error ≠ .emptyExpression
  := by
  by_cases hgroup : EndsInGroup before
  · rw [h.groupUnclosed_iff.mpr hgroup]
    use rfl, Error.noConfusion
  · by_cases hexpression : IsExpression before
    · rw [h.leftover_iff.mpr hexpression]
      use rfl, Error.noConfusion
    · rw [h.operandExpected_iff.mpr ⟨hgroup, hexpression⟩]
      use rfl, Error.noConfusion

/-- An error of a text is about the token on which reading stopped, the first offence among the
tokens of the text. -/
def ReportsFirstOffence (text : String) (error : Error) : Prop :=
  ∃ (tokens before : List Token) (cursor : Cursor), tokenize text = .ok tokens ∧
    (Cursor.ofTokens tokens).parse = (.error error, cursor) ∧
    tokens = before ++ (cursor.tokens ++ [.endOfInput]) ∧
    FirstOffence before cursor.current error

/-- An error at the first offence is a syntax error, and not the one for an empty text. -/
theorem ReportsFirstOffence.kind_eq {text : String} {error : Error}
    (h : ReportsFirstOffence text error) :
  error.kind = .syntactic ∧ error ≠ .emptyExpression
  := by
  obtain ⟨tokens, before, cursor, -, -, -, hfirst⟩ := h
  apply hfirst.kind_eq

/-- A text is refused by its characters, is empty, or has tokens that are refused at the first
offence only. -/
theorem parse_cases (text : String) :
  (∃ fault : Error, tokenize text = .error fault ∧ fault.kind = .lexical ∧
    parse text = .error fault) ∨
  (tokenize text = .ok [.endOfInput] ∧ parse text = .error .emptyExpression) ∨
  (∃ tokens : List Token, tokenize text = .ok tokens ∧ tokens ≠ [.endOfInput] ∧
    ∀ error : Error, parse text = .error error → ReportsFirstOffence text error)
  := by
  cases htokens : tokenize text with
  | error fault =>
    left
    use fault, rfl, kind_of_tokenize htokens, parse_of_tokenize_error htokens
  | ok tokens =>
    right
    by_cases hne : tokens = [.endOfInput]
    · left
      rw [hne] at htokens ⊢
      use rfl, parse_of_endOfInput htokens
    · right
      use tokens, rfl, hne
      intro error h
      rw [parse_of_tokenize htokens hne] at h
      have hparse : (Cursor.ofTokens tokens).parse
          = (.error error, (Cursor.ofTokens tokens).parse.2) := Prod.ext h rfl
      obtain ⟨before, heq, hfirst⟩ := Cursor.exists_firstOffence htokens hparse
      use tokens, before, (Cursor.ofTokens tokens).parse.2, htokens, hparse, heq

/-- A text is an empty expression exactly when it has no tokens. -/
theorem parse_eq_emptyExpression_iff (text : String) :
  parse text = .error .emptyExpression ↔ tokenize text = .ok [.endOfInput]
  := by
  rcases parse_cases text with ⟨fault, htokens, hkind, hparse⟩ | ⟨htokens, hparse⟩ |
    ⟨tokens, htokens, hne, hreports⟩
  · rw [htokens, hparse]
    constructor
    · intro h
      cases h
      cases hkind
    · intro h
      cases h
  · rw [htokens, hparse]
    exact ⟨fun _ => rfl, fun _ => rfl⟩
  · constructor
    · intro h
      cases (hreports _ h).kind_eq.2 rfl
    · intro h
      cases hne (Except.ok.inj (htokens.symm.trans h))

/-- The lexical errors of a text are those of its characters. -/
theorem parse_eq_lexical_iff (text : String) (error : Error) :
  parse text = .error error ∧ error.kind = .lexical ↔ tokenize text = .error error
  := by
  rcases parse_cases text with ⟨fault, htokens, hkind, hparse⟩ | ⟨htokens, hparse⟩ |
    ⟨tokens, htokens, hne, hreports⟩
  · rw [htokens, hparse]
    constructor
    · rintro ⟨h, -⟩
      cases h
      rfl
    · intro h
      cases h
      use rfl, hkind
  · rw [htokens, hparse]
    constructor
    · rintro ⟨h, hlexical⟩
      cases h
      cases hlexical
    · intro h
      cases h
  · rw [htokens]
    constructor
    · rintro ⟨h, hlexical⟩
      cases hlexical.symm.trans (hreports error h).kind_eq.1
    · intro h
      cases h

/-- The errors of a text.  A text without tokens is an empty expression; a text that cannot be
read as tokens is the lexical error of its first fault; and any other error is that of the first
token that no expression can have at its place. -/
theorem parse_error_firstOffence (text : String) :
  (parse text = .error .emptyExpression ↔ tokenize text = .ok [.endOfInput]) ∧
  (∀ error : Error,
    parse text = .error error ∧ error.kind = .lexical ↔ tokenize text = .error error) ∧
  ∀ error : Error, parse text = .error error → error.kind = .syntactic →
    error ≠ .emptyExpression → ReportsFirstOffence text error
  := by
  refine ⟨parse_eq_emptyExpression_iff text, parse_eq_lexical_iff text, ?_⟩
  intro error h hsyntactic hnonempty
  rcases parse_cases text with ⟨fault, -, hkind, hparse⟩ | ⟨-, hparse⟩ | ⟨-, -, -, hreports⟩
  · rw [hparse] at h
    cases h
    cases hkind.symm.trans hsyntactic
  · cases hnonempty (Except.error.inj (h.symm.trans hparse))
  · apply hreports error h

/-- In `-(x y)` the second name stands where the group should close. -/
theorem parse_error_firstOffence_group :
  parse "-(x y)" = .error (.groupUnclosed (.identifier "y")) ∧
    ReportsFirstOffence "-(x y)" (.groupUnclosed (.identifier "y"))
  := by
  have hy : Spells ['y', ')'] [.identifier "y", .rightParen, .endOfInput] := by
    apply @Spells.identifier 'y' [] [')'] [.rightParen, .endOfInput] rfl (List.all_eq_true.mp rfl)
      _ (Spells.single rfl rfl Spells.nil)
    intro d hd
    rw [← Option.some.inj hd]
    decide +kernel
  have hx : Spells ['x', ' ', 'y', ')']
      [.identifier "x", .identifier "y", .rightParen, .endOfInput] := by
    apply @Spells.identifier 'x' [] [' ', 'y', ')'] [.identifier "y", .rightParen, .endOfInput]
      rfl (List.all_eq_true.mp rfl) _ (Spells.blank rfl hy)
    intro d hd
    rw [← Option.some.inj hd]
    decide +kernel
  have htokens : tokenize "-(x y)" = .ok [.operator '-', .leftParen, .identifier "x",
      .identifier "y", .rightParen, .endOfInput] :=
    Spells.single rfl rfl (Spells.single rfl rfl hx) 0
  have hparse : parse "-(x y)" = .error (.groupUnclosed (.identifier "y")) := by
    rw [parse, if_neg (by decide), htokens]
    rfl
  use hparse
  apply (parse_error_firstOffence "-(x y)").2.2 _ hparse rfl Error.noConfusion

end Calculator
