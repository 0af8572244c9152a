import Calculator.Proofs.Expr.Grammar
import Calculator.Proofs.Token.Spelling
import Mathlib.Data.List.TakeWhile

/-!
# What the reader accepts

Reading a list of tokens gives a tree exactly when the grammar derives that tree from the
tokens, and at most one tree is derivable (`Cursor.parse_eq_ok_iff_derives`).  The same is
said of texts by their tokens (`parse_eq_ok_iff`).

* A phrase that is derived takes the reader from a place where it is due to a position
  whose operand, folded as far as the category of the phrase, is the tree of the phrase
  (`Grammar.Derives.carries`).
* Conversely `Position.Explains ts position` describes each position by phrases: the
  frames belong to tokens before the operand, and the operand is a phrase.  Each step
  keeps this (`Explains.step`), and so does a whole run (`Explains.run`).
-/

namespace Calculator

open Grammar

/-! ### Frames under an operand -/

namespace Frame

/-- Whether the innermost frame leaves a finished operand alone when operations of a given
level or more are folded. -/
def Holds (level : Nat) : List Frame → Prop
  | [] | .group :: _ => True
  | .after _ op :: _ => op.level < level
  | .negate :: _ | .apply _ :: _ => False

/-- Frames that hold an operand at a level hold it at each higher level. -/
theorem Holds.mono {low high : Nat} (hle : low ≤ high) :
  ∀ {frames : List Frame}, Holds low frames → Holds high frames
  | [], _ | .group :: _, _ => trivial
  | .after _ _ :: _, h => Nat.lt_of_lt_of_le h hle

/-- Frames that hold an operand absorb nothing into it. -/
theorem absorb_of_holds {level : Nat} (operand : Expr) :
  ∀ {frames : List Frame}, Holds level frames → absorb frames operand = (frames, operand)
  | [], _ | .group :: _, _ | .after _ _ :: _, _ => rfl

/-- Frames that hold an operand at a level fold nothing into it there. -/
theorem fold_of_holds {level : Nat} (operand : Expr) :
  ∀ {frames : List Frame}, Holds level frames → fold level frames operand = (frames, operand)
  | [], _ | .group :: _, _ => rfl
  | .after _ _ :: _, h => if_neg (Nat.not_le_of_lt h)

/-- Where frames hold an operand, more than a primary may follow. -/
theorem primaryDue_of_holds {level : Nat} :
  ∀ {frames : List Frame}, Holds level frames → Position.primaryDue frames = false
  | [], _ | .group :: _, _ | .after _ _ :: _, _ => rfl

end Frame

namespace Position

open Calculator.Frame

/-- An operand that is held is finished at once. -/
theorem primary_of_holds {level : Nat} {frames : List Frame} (h : Holds level frames)
    (operand : Expr) :
  primary frames operand = ⟨frames, some operand⟩
  := by
  rw [primary, absorb_of_holds operand h]

/-- A token that is taken is a step of the run. -/
theorem run_cons {position next : Position} {token : Token} (hne : token ≠ .endOfInput)
    (h : position.step token = .ok next) (rest : List Token) :
  position.run (token :: rest) = next.run rest
  := by
  rw [run, if_neg hne, h]

end Position

/-! ### Phrases carry the reader -/

namespace Grammar

open Position Calculator.Frame

/-- What a phrase does to the reader where the phrase is due.  A sequence ends in a position
that folds to its tree; a unary phrase or a primary is an operand right away. -/
def Carries : Category → List Token → Expr → Prop
  | .sequence s, ts, e =>
    ∀ (frames : List Frame) (rest : List Token), Holds s.level frames →
      ∃ (inner : List Frame) (operand : Expr),
        run ⟨frames, none⟩ (ts ++ rest) = run ⟨inner, some operand⟩ rest ∧
        ∀ level ≤ s.level, fold level inner operand = fold level frames e
  | .unary, ts, e =>
    ∀ (frames : List Frame) (rest : List Token), primaryDue frames = false →
      run ⟨frames, none⟩ (ts ++ rest) = run (primary frames e) rest
  | .primary, ts, e =>
    ∀ (frames : List Frame) (rest : List Token),
      (startsWithFunction ts = true → primaryDue frames = true) →
        run ⟨frames, none⟩ (ts ++ rest) = run (primary frames e) rest

/-- An operand of a sequence carries the reader as a sequence of the next level does. -/
theorem Carries.operand {s : Sequence} {ts : List Token} {e : Expr} (h : Carries s.operand ts e)
    (frames : List Frame) (rest : List Token) (hframes : Holds (s.level + 1) frames) :
  ∃ (inner : List Frame) (operand : Expr),
    run ⟨frames, none⟩ (ts ++ rest) = run ⟨inner, some operand⟩ rest ∧
    ∀ level ≤ s.level + 1, fold level inner operand = fold level frames e
  := by
  cases s with
  | expression | term => apply h frames rest hframes
  | factor =>
    use frames, e
    constructor
    · rw [h frames rest (primaryDue_of_holds hframes), primary_of_holds hframes]
    · intro _ _
      rfl

/-- Every phrase carries the reader. -/
theorem Derives.carries {category : Category} {ts : List Token} {e : Expr}
    (h : Derives category ts e) :
  Carries category ts e
  := by
  induction h with
  | @operand s ts e _ ih =>
    intro frames rest hframes
    obtain ⟨inner, operand, hrun, hfold⟩ :=
      ih.operand frames rest (hframes.mono (Nat.le_succ s.level))
    use inner, operand, hrun
    intro level hlevel
    apply hfold level (Nat.le_succ_of_le hlevel)
  | @join s op ts us left right hop _ _ ihleft ihright =>
    intro frames rest hframes
    have hlevel := (s.mem_operators_iff op).mp hop
    obtain ⟨inner, operand, hrun, hfold⟩ :=
      ihleft frames (.operator op.symbol :: (us ++ rest)) hframes
    have hleft : fold op.level inner operand = (frames, left) := by
      rw [hfold op.level (Nat.le_of_eq hlevel), hlevel, fold_of_holds left hframes]
    have hstep : step ⟨inner, some operand⟩ (.operator op.symbol)
        = .ok ⟨.after left op :: frames, none⟩ := by
      unfold step continueOperand
      simp only [(Operator.ofSymbol?_eq_some_iff _ op).mpr rfl, hleft]
    have hnext : Holds (s.level + 1) (.after left op :: frames) :=
      Nat.lt_succ_of_le (Nat.le_of_eq hlevel)
    obtain ⟨inner', operand', hrun', hfold'⟩ := ihright.operand _ rest hnext
    use inner', operand'
    constructor
    · rw [List.append_assoc, List.cons_append, hrun, run_cons Token.noConfusion hstep, hrun']
    · intro level hle
      rw [hfold' level (Nat.le_succ_of_le hle), fold, if_pos (hlevel ▸ hle)]
  | minus _ ih =>
    intro frames rest hdue
    have hstep : step ⟨frames, none⟩ (.operator '-') = .ok ⟨.negate :: frames, none⟩ := by
      simp [step, beginOperand, hdue]
    rw [List.cons_append, run_cons Token.noConfusion hstep, ih _ rest rfl]
    rfl
  | plus _ ih =>
    intro frames rest hdue
    have hstep : step ⟨frames, none⟩ (.operator '+') = .ok ⟨frames, none⟩ := by
      simp [step, beginOperand, hdue]
    rw [List.cons_append, run_cons Token.noConfusion hstep, ih _ rest hdue]
  | @apply name function ts e hname _ ih =>
    intro frames rest hdue
    have hstep : step ⟨frames, none⟩ (.identifier name)
        = .ok ⟨.apply function :: frames, none⟩ := by
      simp [step, beginOperand, hdue, hname]
    rw [List.cons_append, run_cons Token.noConfusion hstep, ih _ rest (fun _ => rfl)]
    rfl
  | primary hstart _ ih =>
    intro frames rest _
    apply ih frames rest
    simp [hstart]
  | number value =>
    intro frames rest _
    apply run_cons Token.noConfusion rfl
  | name text =>
    intro frames rest hdue
    apply run_cons Token.noConfusion
    cases hframes : primaryDue frames with
    | true => simp [step, beginOperand, hframes]
    | false =>
      have hname : UnaryOp.ofName? text = none := by
        simpa [startsWithFunction, hframes] using hdue
      simp [step, beginOperand, hname]
  | @group ts e _ ih =>
    intro frames rest _
    obtain ⟨inner, operand, hrun, hfold⟩ :=
      ih (.group :: frames) (.rightParen :: rest) trivial
    have hclose : step ⟨inner, some operand⟩ .rightParen
        = .ok (Position.primary frames e) := by
      unfold step continueOperand
      simp only [hfold 0 (Nat.zero_le _), fold]
    rw [List.cons_append, List.cons_append, List.append_assoc, run_cons Token.noConfusion rfl,
      List.singleton_append, hrun, run_cons Token.noConfusion hclose]

/-- What the grammar derives, the reader answers. -/
theorem Derives.run_start {ts : List Token} {e : Expr}
    (h : Derives (.sequence .expression) ts e) :
  start.run ts = (.ok e, [])
  := by
  obtain ⟨inner, operand, hrun, hfold⟩ := h.carries [] [] trivial
  rw [List.append_nil] at hrun
  rw [start, hrun, run, finish]
  simp only [hfold 0 (Nat.zero_le _), fold]

end Grammar

/-! ### Phrases explain the reader -/

namespace Position

open Calculator.Frame

/-- Signs and function names before an operand, and their frames. -/
inductive Signs : List Token → List Frame → Prop where
  | nil : Signs [] []
  | minus {ts : List Token} {signs : List Frame} :
      Signs ts signs → primaryDue signs = false →
      Signs (ts ++ [.operator '-']) (.negate :: signs)
  | plus {ts : List Token} {signs : List Frame} :
      Signs ts signs → primaryDue signs = false → Signs (ts ++ [.operator '+']) signs
  | apply {ts : List Token} {signs : List Frame} {name : String} {function : UnaryOp} :
      Signs ts signs → primaryDue signs = false → UnaryOp.ofName? name = some function →
      Signs (ts ++ [.identifier name]) (.apply function :: signs)

/-- The tokens up to the place where the operand of the innermost group or operator begins,
signs included, and the frames there. -/
inductive Opens : List Token → List Frame → Prop where
  | start : Opens [] []
  | group {ts us : List Token} {frames signs : List Frame} :
      Opens ts frames → Signs us signs →
      Opens (ts ++ us ++ [.leftParen]) (.group :: (signs ++ frames))
  | after {ts us : List Token} {frames : List Frame} {left : Expr} {op : Operator} :
      Opens ts frames → Holds op.level frames → Derives (.atLevel op.level) us left →
      Opens (ts ++ us ++ [.operator op.symbol]) (.after left op :: frames)

/-- The tokens that lead to a position: those of its frames, and then signs, where an
operand is due, or a unary phrase, where one was just finished. -/
inductive Explains : List Token → Position → Prop where
  | due {ts us : List Token} {frames signs : List Frame} :
      Opens ts frames → Signs us signs → Explains (ts ++ us) ⟨signs ++ frames, none⟩
  | done {ts us : List Token} {frames : List Frame} {e : Expr} :
      Opens ts frames → Derives .unary us e → Explains (ts ++ us) ⟨frames, some e⟩

/-- Opened frames hold every operand. -/
theorem Opens.holds {ts : List Token} {frames : List Frame} (h : Opens ts frames) :
  Holds 4 frames
  := by
  cases h with
  | start | group => trivial
  | @after _ _ _ _ op => apply op.level_lt_four

/-- Opened frames without signs before them expect any operand. -/
theorem Opens.primaryDue_append {ts : List Token} {frames : List Frame} (h : Opens ts frames)
    (signs : List Frame) :
  primaryDue (signs ++ frames) = primaryDue signs
  := by
  cases signs with
  | nil => apply primaryDue_of_holds h.holds
  | cons sign signs => cases sign <;> rfl

/-- An operand takes in the signs and functions before it, and becomes a unary phrase. -/
theorem Signs.absorb {us : List Token} {signs : List Frame} (h : Signs us signs)
    {frames : List Frame} (hframes : Holds 4 frames) {vs : List Token} {e : Expr}
    (he : Derives (if primaryDue signs then .primary else .unary) vs e) :
  ∃ e' : Expr, Frame.absorb (signs ++ frames) e = (frames, e') ∧ Derives .unary (us ++ vs) e'
  := by
  induction h generalizing vs e with
  | nil => use e, absorb_of_holds e hframes, he
  | @minus ts signs _ hdue ih =>
    obtain ⟨e', habsorb, hunary⟩ := ih (by simpa [hdue] using Derives.minus he)
    use e', habsorb
    simpa using hunary
  | @plus ts signs _ hdue ih =>
    have hunary : Derives .unary vs e := by simpa [hdue] using he
    obtain ⟨e', habsorb, hunary⟩ := ih (by simpa [hdue] using Derives.plus hunary)
    use e', habsorb
    simpa using hunary
  | @apply ts signs name function _ hdue hname ih =>
    obtain ⟨e', habsorb, hunary⟩ := ih (by simpa [hdue] using Derives.apply hname he)
    use e', habsorb
    simpa using hunary

/-- A primary takes in the signs and functions before it, and becomes a unary phrase. -/
theorem Signs.absorb_primary {us : List Token} {signs : List Frame} (h : Signs us signs)
    {frames : List Frame} (hframes : Holds 4 frames) {vs : List Token} {e : Expr}
    (he : Derives .primary vs e)
    (hstart : primaryDue signs = false → startsWithFunction vs = false) :
  ∃ e' : Expr, Frame.absorb (signs ++ frames) e = (frames, e') ∧ Derives .unary (us ++ vs) e'
  := by
  have hphrase : Derives (if primaryDue signs then .primary else .unary) vs e := by
    cases hdue : primaryDue signs with
    | true => apply he
    | false => apply Derives.primary (hstart hdue) he
  apply h.absorb hframes hphrase

/-- A primary after signs leads to a finished operand. -/
theorem Explains.primary {ts us vs : List Token} {frames signs : List Frame} {e : Expr}
    (hframes : Opens ts frames) (hsigns : Signs us signs) (he : Derives .primary vs e)
    (hstart : primaryDue signs = false → startsWithFunction vs = false) :
  Explains (ts ++ us ++ vs) (Position.primary (signs ++ frames) e)
  := by
  obtain ⟨e', habsorb, hunary⟩ := hsigns.absorb_primary hframes.holds he hstart
  rw [Position.primary, habsorb, List.append_assoc]
  apply Explains.done hframes hunary

/-- Folding an operand at a level moves the tokens of the folded frames into its phrase. -/
theorem Opens.fold {low high : Nat} {ts us : List Token} {frames : List Frame} {e : Expr}
    (h : Opens ts frames) (hle : low ≤ high) (hframes : Holds high frames)
    (he : Derives (.atLevel high) us e) :
  ∃ (ts' us' : List Token) (frames' : List Frame) (e' : Expr),
    Frame.fold low frames e = (frames', e') ∧ Opens ts' frames' ∧ Holds low frames' ∧
      Derives (.atLevel low) us' e' ∧ ts ++ us = ts' ++ us'
  := by
  induction h generalizing us e high with
  | start => use [], us, [], e, rfl, .start, trivial, he.of_le hle
  | @group ts vs frames signs hopen hsigns =>
    use ts ++ vs ++ [.leftParen], us, .group :: (signs ++ frames), e, rfl, .group hopen hsigns,
      trivial, he.of_le hle
  | @after ts vs frames left op hopen hholds hleft ih =>
    by_cases hlevel : low ≤ op.level
    · have hjoin := Derives.join_level hleft (he.of_le (Nat.succ_le_of_lt hframes))
      obtain ⟨ts', us', frames', e', hfold, hopen', hholds', he', heq⟩ := ih hlevel hholds hjoin
      use ts', us', frames', e'
      rw [Frame.fold, if_pos hlevel]
      use hfold, hopen', hholds', he'
      simpa using heq
    · use ts ++ vs ++ [.operator op.symbol], us, .after left op :: frames, e
      rw [Frame.fold, if_neg hlevel]
      use rfl, .after hopen hholds hleft, Nat.lt_of_not_le hlevel, he.of_le hle

/-- A position stays explained where an operand begins. -/
theorem Explains.beginOperand {ts us : List Token} {frames signs : List Frame} {token : Token}
    {next : Position} (hframes : Opens ts frames) (hsigns : Signs us signs)
    (h : Position.beginOperand (signs ++ frames) token = .ok next) :
  Explains (ts ++ us ++ [token]) next
  := by
  have hdue := hframes.primaryDue_append signs
  cases token with
  | number value =>
    cases h
    apply Explains.primary hframes hsigns (.number value) (fun _ => rfl)
  | leftParen =>
    cases h
    simpa using Explains.due (.group hframes hsigns) .nil
  | identifier name =>
    simp only [Position.beginOperand, hdue] at h
    cases hprimary : primaryDue signs with
    | true =>
      simp only [hprimary, if_true] at h
      cases h
      apply Explains.primary hframes hsigns (.name name)
      simp [hprimary]
    | false =>
      simp only [hprimary, Bool.false_eq_true, if_false] at h
      cases hname : UnaryOp.ofName? name with
      | none =>
        simp only [hname] at h
        cases h
        apply Explains.primary hframes hsigns (.name name)
        simp [startsWithFunction, hname]
      | some function =>
        simp only [hname] at h
        cases h
        rw [List.append_assoc]
        apply Explains.due hframes (.apply hsigns hprimary hname)
  | operator symbol =>
    simp only [Position.beginOperand, hdue] at h
    split at h
    · cases h
    · rename_i hprimary
      have hprimary := Bool.eq_false_iff.mpr hprimary
      rw [List.append_assoc]
      split at h
      · rename_i hminus
        cases h
        cases hminus
        apply Explains.due hframes (.minus hsigns hprimary)
      · split at h
        · rename_i hplus
          cases h
          cases hplus
          apply Explains.due hframes (.plus hsigns hprimary)
        · cases h
  | rightParen | endOfInput => cases h

/-- A position stays explained after an operand. -/
theorem Explains.continueOperand {ts us : List Token} {frames : List Frame} {e : Expr}
    {token : Token} {next : Position} (hframes : Opens ts frames) (he : Derives .unary us e)
    (h : Position.continueOperand frames e token = .ok next) :
  Explains (ts ++ us ++ [token]) next
  := by
  cases token with
  | operator symbol =>
    unfold Position.continueOperand at h
    cases hop : Operator.ofSymbol? symbol with
    | none => simp [hop] at h
    | some op =>
      obtain ⟨ts', us', frames', left, hfold, hopen, hholds, hleft, heq⟩ :=
        hframes.fold (Nat.le_of_lt op.level_lt_four) hframes.holds he
      simp only [hop, hfold] at h
      cases h
      cases (Operator.ofSymbol?_eq_some_iff symbol op).mp hop
      rw [heq]
      simpa using Explains.due (.after hopen hholds hleft) .nil
  | rightParen =>
    obtain ⟨ts', us', frames', e', hfold, hopen, -, he', heq⟩ :=
      hframes.fold (Nat.zero_le 4) hframes.holds he
    unfold Position.continueOperand at h
    simp only [hfold] at h
    split at h
    · rename_i inner operand hgroup
      cases hgroup
      cases h
      cases hopen with
      | @group ts₀ us₀ frames₀ signs₀ hopen₀ hsigns₀ =>
        have hnext := Explains.primary hopen₀ hsigns₀ (.group he') (fun _ => rfl)
        rw [heq]
        simpa using hnext
    · cases h
  | number | identifier | leftParen | endOfInput => cases h

/-- Each step keeps a position explained. -/
theorem Explains.step {ts : List Token} {position next : Position} {token : Token}
    (hposition : Explains ts position) (h : position.step token = .ok next) :
  Explains (ts ++ [token]) next
  := by
  cases hposition with
  | due hframes hsigns => apply Explains.beginOperand hframes hsigns h
  | done hframes he => apply Explains.continueOperand hframes he h

/-- The tokens that lead to a position that can be finished are an expression. -/
theorem Explains.finish {ts : List Token} {position : Position} {e : Expr}
    (hposition : Explains ts position) (h : position.finish = .ok e) :
  Derives (.sequence .expression) ts e
  := by
  cases hposition with
  | due => cases h
  | done hframes he =>
    obtain ⟨ts', us', frames', e', hfold, hopen, -, he', heq⟩ :=
      hframes.fold (Nat.zero_le 4) hframes.holds he
    simp only [Position.finish, hfold] at h
    split at h
    · rename_i hempty
      cases hempty
      cases h
      cases hopen
      rw [heq]
      apply he'
    · cases h

/-- A run that answers a tree has read an expression with that tree. -/
theorem Explains.run {e : Expr} {rest : List Token} :
  ∀ {us ts : List Token} {position : Position}, Explains ts position → Token.endOfInput ∉ us →
    position.run us = (.ok e, rest) → Derives (.sequence .expression) (ts ++ us) e
  | [], ts, position, hposition, _, h => by
      rw [List.append_nil]
      apply hposition.finish (Prod.mk.inj h).1
  | token :: us, ts, position, hposition, hend, h => by
      obtain ⟨hne, hend⟩ := List.ne_and_not_mem_of_not_mem_cons hend
      rw [Position.run, if_neg (Ne.symm hne)] at h
      split at h
      · rename_i next hstep
        have hrest := Explains.run (hposition.step hstep) hend h
        rw [List.append_assoc] at hrest
        apply hrest
      · cases h

end Position

/-! ### One tree for each phrase -/

namespace Grammar

/-- At most one tree is derived from the tokens of an expression. -/
theorem Derives.expression_unique {ts : List Token} {e e' : Expr}
    (h : Derives (.sequence .expression) ts e) (h' : Derives (.sequence .expression) ts e') :
  e = e'
  := by
  have hrun := h.run_start.symm.trans h'.run_start
  apply Except.ok.inj (Prod.mk.inj hrun).1

/-- At most one tree is derived from the tokens of a unary phrase. -/
theorem Derives.unary_unique {ts : List Token} {e e' : Expr}
    (h : Derives .unary ts e) (h' : Derives .unary ts e') :
  e = e'
  := by
  have hle : 1 ≤ 4 := by decide
  apply expression_unique (of_le hle h) (of_le hle h')

/-- At most one tree is derived from the tokens of a phrase. -/
theorem Derives.unique {category : Category} {ts : List Token} {e e' : Expr}
    (h : Derives category ts e) (h' : Derives category ts e') :
  e = e'
  := by
  cases category with
  | sequence s =>
    have hle : 1 ≤ s.level := by cases s <;> decide
    rw [← Category.atLevel_level s] at h h'
    apply expression_unique (h.of_le hle) (h'.of_le hle)
  | unary => apply unary_unique h h'
  | primary =>
    have hname : UnaryOp.ofName? "sin" = some (.circular .sin) := by decide
    have hunary := unary_unique (apply hname h) (apply hname h')
    apply (Expr.unary.inj hunary).2

end Grammar

/-! ### The reader and the grammar -/

namespace Cursor

/-- The end of the input at the end of a list of tokens makes no difference. -/
theorem ofTokens_append_endOfInput {ts : List Token} (h : Token.endOfInput ∉ ts) :
  ofTokens (ts ++ [.endOfInput]) = ofTokens ts
  := by
  have hlast : ts.getLast? ≠ some .endOfInput := fun hlast => h (List.mem_of_getLast? hlast)
  rw [ofTokens, ofTokens, if_neg hlast, if_pos List.getLast?_concat, List.dropLast_concat]

/-- Reading a list of tokens gives a tree exactly when the grammar derives the tree. -/
theorem parse_ofTokens {ts : List Token} (h : Token.endOfInput ∉ ts) (e : Expr) :
  (ofTokens ts).parse.1 = .ok e ↔ Derives (.sequence .expression) ts e
  := by
  have hlast : ts.getLast? ≠ some .endOfInput := fun hlast => h (List.mem_of_getLast? hlast)
  rw [ofTokens, if_neg hlast, parse]
  constructor
  · intro hrun
    apply Position.Explains.run (.due .start .nil) h (Prod.ext hrun rfl)
  · intro he
    rw [he.run_start]

/-- Reading tokens, with or without the end of the input after them, gives a tree exactly
when the grammar derives the tree from them, and the grammar derives at most one. -/
theorem parse_eq_ok_iff_derives :
  (∀ ts : List Token, Token.endOfInput ∉ ts → ∀ e : Expr,
    ((ofTokens ts).parse.1 = .ok e ↔ Derives (.sequence .expression) ts e) ∧
    ((ofTokens (ts ++ [.endOfInput])).parse.1 = .ok e ↔ Derives (.sequence .expression) ts e)) ∧
  ∀ (category : Category) (ts : List Token) (e e' : Expr),
    Derives category ts e → Derives category ts e' → e = e'
  := by
  constructor
  · intro ts hend e
    rw [ofTokens_append_endOfInput hend]
    use parse_ofTokens hend e
    apply parse_ofTokens hend e
  · intro category ts e e' h h'
    apply h.unique h'

/-- The reading of `-2 ^ 3 ^ 2 % sin(x)`. -/
theorem parse_eq_ok_iff_derives_power_chain :
  let ts : List Token := [.operator '-', .number 2.0, .operator '^', .number 3.0, .operator '^',
    .number 2.0, .operator '%', .identifier "sin", .leftParen, .identifier "x", .rightParen]
  let power (left : Expr) (right : Float) : Expr :=
    .binary left (.operator .power) (.number right)
  let e : Expr := .binary (power (power (.unary .negate (.number 2.0)) 3.0) 2.0)
    (.operator .modulo) (.unary (.circular .sin) (.variable "X"))
  Token.endOfInput ∉ ts ∧ (ofTokens ts).parse.1 = .ok e ∧ Derives (.sequence .expression) ts e
  := by
  intro ts power e
  have hend : Token.endOfInput ∉ ts := by decide
  have hparse : (ofTokens ts).parse.1 = .ok e := by rfl
  use hend, hparse
  apply (parse_eq_ok_iff_derives.1 ts hend e).1.mp hparse

end Cursor

/-! ### Texts -/

/-- A blank text has no tokens but the end of the input. -/
theorem tokenize_of_blank {text : String} (h : text.toList.all Text.isBlank = true) :
  tokenize text = .ok [.endOfInput]
  := by
  have hrest : text.toList.dropWhile Text.isBlank = [] := by
    apply List.dropWhile_eq_nil_iff.mpr
    intro c hc
    apply List.all_eq_true.mp h c hc
  apply Place.tokens_of_read_none
  simp [Place.read, Place.skipBlanks, Place.ofText, hrest]

/-- A text spells an expression exactly when its tokens are derived. -/
theorem parse_eq_ok_iff {text : String} {e : Expr} :
  parse text = .ok e ↔
    ∃ ts : List Token, tokenize text = .ok (ts ++ [.endOfInput]) ∧
      Derives (.sequence .expression) ts e
  := by
  have hread : ∀ ts : List Token, tokenize text = .ok (ts ++ [.endOfInput]) →
      Token.endOfInput ∉ ts →
      ((do let tokens ← tokenize text; (Cursor.ofTokens tokens).parse.1) = .ok e ↔
        Derives (.sequence .expression) ts e) := by
    intro ts htokens hend
    rw [htokens, ← Cursor.parse_ofTokens hend, ← Cursor.ofTokens_append_endOfInput hend]
    rfl
  cases hblank : text.toList.all Text.isBlank with
  | true =>
    simp only [parse, hblank, if_true, reduceCtorEq, false_iff]
    rintro ⟨ts, htokens, he⟩
    rw [tokenize_of_blank hblank, Except.ok.injEq] at htokens
    have hts : ts = [] := by simpa using htokens
    subst hts
    have hparse := (Cursor.parse_ofTokens List.not_mem_nil e).mpr he
    cases hparse
  | false =>
    simp only [parse, hblank, Bool.false_eq_true, if_false]
    constructor
    · intro h
      cases htokens : tokenize text with
      | error error => simp [htokens, Bind.bind, Except.bind] at h
      | ok tokens =>
        obtain ⟨ts, rfl, hend⟩ := Place.tokens_eq_concat htokens
        use ts, rfl
        apply (hread ts htokens hend).mp h
    · rintro ⟨ts, htokens, he⟩
      apply (hread ts htokens he.endOfInput_notMem).mpr he

end Calculator
