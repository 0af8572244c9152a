import Calculator.Proofs.Expr.Concatenation
import Calculator.Proofs.Expr.Strictness
import Calculator.Proofs.Program.Dialogue

/-!
# Single expressions

An expression that the options give has the same outcome as in a line, written without a mark in
front and with an exit code instead.  A line is read without the blanks around it, and a given
expression with them, so a lexical error of the latter stands further on by the blanks in front.

* `parse_eq_trim` and `Evaluator.calculate_eq_trim`: what the blanks around a text change.
* `Error.report_moved_iff`: errors with different reports have different reports further on.
* `Options.run_lines` and `Options.run_forExpression`: what the program writes for an expression in
  a line and for one that the options give.
* `Options.run_line_iff_expression`: each of the two outcomes determines the other.
-/

namespace Calculator

/-! ### Texts with blanks around them -/

/-- The blanks around a text only move the offset of a lexical error. -/
theorem parse_eq_trim (text : String) :
  parse text = (parse (Text.trim text)).mapError (Error.moved (indentation text))
  := parse_of_tokenize_moved (tokenize_eq_trim text)

/-- The blanks around a text leave its display as it is, and only move the offset of a lexical
error. -/
theorem Evaluator.calculate_eq_trim (evaluator : Evaluator) (text : String) :
  evaluator.calculate text
    = (evaluator.calculate (Text.trim text)).mapError (Error.moved (indentation text))
  := by
  simp only [calculate, evaluateText, parse_eq_trim text]
  cases parse (Text.trim text) with
  | error error => rfl
  | ok expression =>
    simp only [Except.mapError, bind, Except.bind, evaluate]
    cases hvalue : expression.evaluate evaluator.mode evaluator.constants with
    | ok value => rfl
    | error error =>
      have hlexical : error.kind ≠ .lexical := by
        intro hkind
        rcases Expr.kind_of_evaluate hvalue with h | h <;> cases hkind.symm.trans h
      simp only [Except.map, Error.moved_of_kind hlexical]

/-! ### Reports -/

/-- A number after the last space of a text can be told from the text before it. -/
theorem append_number_inj {s s' : String} {n n' : Nat}
    (h : s ++ " " ++ toString n = s' ++ " " ++ toString n') :
  s = s' ∧ n = n'
  := by
  have hchars : ∀ (s : String) (n : Nat),
      (s ++ " " ++ toString n).toList = s.toList ++ ' ' :: Nat.toDigits 10 n := by
    intro s n
    rw [String.toList_append, String.toList_append, Nat.toString_eq_repr, Nat.toList_repr,
      List.append_assoc]
    rfl
  have hdigits : ∀ (s : String) (n : Nat),
      (s ++ " " ++ toString n).toList.reverse.takeWhile Char.isDigit
        = (Nat.toDigits 10 n).reverse := by
    intro s n
    have hall : ∀ d ∈ (Nat.toDigits 10 n).reverse, d.isDigit = true := fun d hd =>
      Nat.isDigit_of_mem_toDigits (by decide) (by decide) (List.mem_reverse.mp hd)
    rw [hchars, List.reverse_append, List.reverse_cons, List.append_assoc,
      List.takeWhile_append_of_pos hall]
    simp
  have hn : Nat.toDigits 10 n = Nat.toDigits 10 n' := by
    apply List.reverse_injective
    rw [← hdigits s n, ← hdigits s' n', h]
  have hlist := congrArg String.toList h
  rw [hchars, hchars, hn] at hlist
  use String.toList_inj.mp (List.append_cancel_right hlist)
  rw [← Nat.ofDigitChars_ten_toDigits (n := n), hn, Nat.ofDigitChars_ten_toDigits]

/-- A text begins as its first part does. -/
theorem head?_toList_append {front : String} {c : Char} (h : front.toList.head? = some c)
    (rest : String) :
  (front ++ rest).toList.head? = some c
  := by
  rw [String.toList_append, List.head?_append, h]
  rfl

namespace Error

/-- The kind of an error can be told from the first character of its report. -/
theorem head?_report (error : Error) :
  error.report.toList.head? = some (match error.kind with
    | .lexical | .syntactic => 'P'
    | .mathDomain => 'M'
    | .unknownIdentifier => 'E')
  := by
  rw [report, String.append_assoc]
  apply head?_toList_append
  cases error.kind <;> rfl

/-- Lexical errors can be told from syntax errors by the first characters of the messages. -/
theorem head?_message (error : Error) :
  error.kind = .lexical ∨ error.kind = .syntactic →
    error.message.toList.head? = some (match error with
      | .unexpectedCharacter .. => 'u'
      | .invalidNumber .. => '\''
      | .leftover _ => 'd'
      | _ => 'e')
  := by
  intro h
  unfold message
  cases error with
  | domain | undefined => simp [kind] at h
  | emptyExpression =>
    simp
  | _ =>
    simp only [String.append_assoc]
    apply head?_toList_append
    simp

/-- A lexical error is determined by its message among the errors about the form of a text. -/
theorem eq_of_message_eq {error error' : Error} (hlexical : error.kind = .lexical)
    (hkind : error'.kind = .lexical ∨ error'.kind = .syntactic)
    (h : error.message = error'.message) :
  error = error'
  := by
  have hhead := error'.head?_message hkind
  rw [← h, error.head?_message (Or.inl hlexical)] at hhead
  unfold message at h
  cases error with
  | unexpectedCharacter c offset =>
    cases error' with
    | unexpectedCharacter c' offset' =>
      have hsplit : "', at position " = "', at position" ++ " " := rfl
      dsimp only at h
      rw [hsplit, ← String.append_assoc, ← String.append_assoc] at h
      obtain ⟨hfront, rfl⟩ := append_number_inj h
      have hc := (String.append_right_inj _).mp ((String.append_left_inj _).mp hfront)
      have hlist := congrArg String.toList hc
      rw [String.toList_singleton, String.toList_singleton] at hlist
      rw [(List.cons.inj hlist).1]
    | domain | undefined => simp [kind] at hkind
    | _ => simp at hhead
  | invalidNumber literal offset =>
    cases error' with
    | invalidNumber literal' offset' =>
      have hsplit : "' at position " = "' at position" ++ " " := rfl
      dsimp only at h
      rw [hsplit, ← String.append_assoc, ← String.append_assoc] at h
      obtain ⟨hfront, rfl⟩ := append_number_inj ((String.append_left_inj _).mp h)
      rw [(String.append_right_inj _).mp ((String.append_left_inj _).mp hfront)]
    | domain | undefined => simp [kind] at hkind
    | _ => simp at hhead
  | _ => cases hlexical

/-- A lexical error is determined by its report. -/
theorem eq_of_report_eq {error error' : Error} (hlexical : error.kind = .lexical)
    (h : error.report = error'.report) :
  error = error'
  := by
  have hhead := error.head?_report
  rw [h, error'.head?_report, hlexical] at hhead
  have hkind : error'.kind = .lexical ∨ error'.kind = .syntactic := by
    cases hkind : error'.kind with
    | lexical | syntactic => simp
    | mathDomain | unknownIdentifier => simp [hkind] at hhead
  have hheading : error.kind.heading = error'.kind.heading := by
    rw [hlexical]
    rcases hkind with hkind | hkind <;> rw [hkind]
    rfl
  rw [report, report, hheading] at h
  apply eq_of_message_eq hlexical hkind ((String.append_right_inj _).mp h)

/-- Being moved changes no kind. -/
theorem kind_moved (error : Error) (bytes : Nat) :
  (error.moved bytes).kind = error.kind
  := by
  cases error <;> rfl

/-- Different errors are different further on. -/
theorem moved_inj {error error' : Error} {bytes : Nat} :
  error.moved bytes = error'.moved bytes ↔ error = error'
  := by
  constructor
  · intro h
    cases error <;> cases error' <;> simp [moved] at h ⊢ <;> try apply h
  · rintro rfl
    rfl

/-- Errors can be told apart by their reports further on as far as they can be before. -/
theorem report_moved_iff (error error' : Error) (bytes : Nat) :
  (error.moved bytes).report = (error'.moved bytes).report ↔ error.report = error'.report
  := by
  by_cases hlexical : error.kind = .lexical
  · constructor
    · intro h
      rw [moved_inj.mp (eq_of_report_eq (error.kind_moved bytes ▸ hlexical) h)]
    · intro h
      rw [eq_of_report_eq hlexical h]
  · by_cases hlexical' : error'.kind = .lexical
    · constructor
      · intro h
        rw [moved_inj.mp (eq_of_report_eq (error'.kind_moved bytes ▸ hlexical') h.symm)]
      · intro h
        rw [eq_of_report_eq hlexical' h.symm]
    · rw [moved_of_kind hlexical, moved_of_kind hlexical']

end Error

/-! ### Expressions in lines and in options -/

/-- The lines in lower case that are commands and no expressions. -/
def Command.words : List String :=
  ["", "quit", "exit", "q", "mode", "degrees", "deg", "radians", "rad", "constants"]

/-- A line that is no command is an expression. -/
theorem Command.ofLine_of_notMem {line : String}
    (h : Text.lowercase (Text.trim line) ∉ words) :
  ofLine line = .calculate (Text.trim line) ∧ endsRun line = false
  := by
  simp only [words, List.mem_cons, List.not_mem_nil, or_false, not_or] at h
  obtain ⟨hblank, hquit, hexit, hq, hmode, hdegrees, hdeg, hradians, hrad, hconstants⟩ := h
  constructor
  · simp only [ofLine]
  · simp only [endsRun, List.contains_cons, List.contains_nil, Bool.or_false, Bool.or_eq_false_iff,
      beq_eq_false_iff_ne]
    use hquit, hexit

/-- The answers to lines and one more line. -/
theorem answers_concat (start : AngleMode) (lines : List String) (line : String) :
  answers start (lines ++ [line])
    = answers start lines ++ [answer (modeAfter start lines) (Text.trim line)]
  := by
  induction lines generalizing start with
  | nil => rfl
  | cons first lines ih =>
    rw [List.cons_append, answers_cons, answers_cons, ih, modeAfter_cons]
    rfl

/-- What is written with one more answer at the end. -/
theorem dialogue_concat (answers : List String) (text : String) :
  dialogue (answers ++ [text]) = dialogue answers ++ text ++ prompt
  := by
  simp only [dialogue, List.map_append, String.join_append, String.append_assoc]
  rfl

/-- The answer to an expression, given without the blanks around it. -/
theorem answer_of_notMem (mode : AngleMode) {line : String}
    (h : Text.lowercase (Text.trim line) ∉ Command.words) :
  answer mode (Text.trim line) = Evaluator.answerLine { mode } (Text.trim line)
  := by
  simp only [answer, Evaluator.respond, Command.ofLine_trim, (Command.ofLine_of_notMem h).1,
    Option.elim_some]

/-- The program answers an expression after some lines in the mode that was set last. -/
theorem Options.run_lines (start : AngleMode) {lines : List String} {line : String}
    (hlines : ∀ l ∈ lines, '\n' ∉ l.toList ∧ endsRun l = false) (hline : '\n' ∉ line.toList)
    (hword : Text.lowercase (Text.trim line) ∉ Command.words) :
  (forLines start).run (textOfLines (lines ++ [line]))
    = ⟨0, dialogue (answers start lines ++
        [Evaluator.answerLine { mode := modeAfter start lines } (Text.trim line)]), ""⟩
  := by
  have hall : ∀ l ∈ lines ++ [line], '\n' ∉ l.toList ∧ endsRun l = false := by
    intro l hl
    rcases List.mem_append.mp hl with hl | hl
    · apply hlines l hl
    · rw [List.mem_singleton.mp hl]
      exact ⟨hline, (Command.ofLine_of_notMem hword).2⟩
  have hheard : heard (lines ++ [line]) = lines ++ [line] := by
    apply List.takeWhile_eq_self_iff.mpr
    intro l hl
    rw [(hall l hl).2]
    rfl
  rw [run_forLines, linesOf_textOfLines fun l hl => (hall l hl).1, hheard,
    answers_concat, answer_of_notMem _ hword]

/-- The options with which the program evaluates one expression in a mode. -/
def Options.forExpression (mode : AngleMode) (text : String) : Options :=
  { forLines mode with expression := some text }

/-- The program evaluates an expression that the options give, and reads no lines. -/
theorem Options.run_forExpression (mode : AngleMode) (text input : String) :
  (forExpression mode text).run input = .ofExpression { mode } text
  := by
  rw [← evaluator_forLines]
  rfl

/-! ### Lines and options compared -/

/-- Nothing that is reported begins with the mark of a value. -/
theorem Error.report_ne (error : Error) (shown : String) :
  error.report ++ "\n" ≠ "  = " ++ shown ++ "\n"
  := by
  intro h
  have hreport := head?_toList_append error.head?_report "\n"
  have hmark : "  = ".toList.head? = some ' ' := rfl
  rw [h, String.append_assoc, head?_toList_append hmark] at hreport
  cases hkind : error.kind <;> simp [hkind] at hreport

/-- The answer to an expression without the blanks around it is that of the expression, but for
the offset of a lexical error. -/
theorem Evaluator.answerLine_iff_ofExpression (evaluator : Evaluator) (text : String) :
  (∀ shown : String, evaluator.answerLine (Text.trim text) = "  = " ++ shown ++ "\n" ↔
    Outcome.ofExpression evaluator text = ⟨0, shown ++ "\n", ""⟩) ∧
  (∀ error : Error, evaluator.answerLine (Text.trim text) = error.report ++ "\n" ↔
    Outcome.ofExpression evaluator text
      = ⟨1, "", (error.moved (indentation text)).report ++ "\n"⟩)
  := by
  have htrim := evaluator.calculate_eq_trim text
  rw [answerLine, Outcome.ofExpression]
  cases hinner : evaluator.calculate (Text.trim text) with
  | ok shown =>
    rw [hinner] at htrim
    rw [htrim]
    constructor
    · intro shown'
      simp [Except.mapError]
    · intro error
      simp [Except.mapError, (error.report_ne shown).symm]
  | error error =>
    rw [hinner] at htrim
    rw [htrim]
    constructor
    · intro shown
      simp [Except.mapError, error.report_ne shown]
    · intro error'
      simp [Except.mapError, error.report_moved_iff]

/-- An expression in a line and in the options.  After lines that do not end the run, the program
answers a line with a value exactly when it writes this value for the line as the expression that
its options give, in the mode that was set last, and exits with 0; and it answers with an error
exactly when it exits with 1 and reports this error, a lexical one further on by the blanks in front
of the line. -/
theorem Options.run_line_iff_expression (start : AngleMode) {lines : List String} {line : String}
    (hlines : ∀ l ∈ lines, '\n' ∉ l.toList ∧ endsRun l = false) (hline : '\n' ∉ line.toList)
    (hword : Text.lowercase (Text.trim line) ∉ Command.words) (input : String) :
  (∀ shown : String,
    (forLines start).run (textOfLines (lines ++ [line]))
      = ⟨0, dialogue (answers start lines ++ ["  = " ++ shown ++ "\n"]), ""⟩ ↔
    (forExpression (modeAfter start lines) line).run input
      = ⟨0, shown ++ "\n", ""⟩) ∧
  (∀ error : Error,
    (forLines start).run (textOfLines (lines ++ [line]))
      = ⟨0, dialogue (answers start lines ++ [error.report ++ "\n"]), ""⟩ ↔
    (forExpression (modeAfter start lines) line).run input
      = ⟨1, "", (error.moved (indentation line)).report ++ "\n"⟩) ∧
  ((∃ shown : String,
    (forLines start).run (textOfLines (lines ++ [line]))
      = ⟨0, dialogue (answers start lines ++ ["  = " ++ shown ++ "\n"]), ""⟩) ∨
  ∃ error : Error,
    (forLines start).run (textOfLines (lines ++ [line]))
      = ⟨0, dialogue (answers start lines ++ [error.report ++ "\n"]), ""⟩)
  := by
  have hinj : ∀ text text' : String,
      (⟨0, dialogue (answers start lines ++ [text]), ""⟩ : Outcome)
        = ⟨0, dialogue (answers start lines ++ [text']), ""⟩ ↔ text = text' := by
    intro text text'
    simp [dialogue_concat]
  obtain ⟨hvalue, herror⟩ :=
    Evaluator.answerLine_iff_ofExpression { mode := modeAfter start lines } line
  rw [run_lines start hlines hline hword, run_forExpression]
  simp only [hinj]
  refine ⟨hvalue, herror, ?_⟩
  rw [Evaluator.answerLine]
  cases Evaluator.calculate { mode := modeAfter start lines } (Text.trim line) with
  | ok shown =>
    left
    use shown
  | error error =>
    right
    use error

/-- A point after a space, in a line after one that sets the mode and in the options. -/
theorem Options.run_line_iff_expression_point :
  (∀ l ∈ ["deg"], '\n' ∉ l.toList ∧ endsRun l = false) ∧ '\n' ∉ " .".toList ∧
    Text.lowercase (Text.trim " .") ∉ Command.words ∧
    modeAfter .radians ["deg"] = .degrees ∧
    (forLines .radians).run (textOfLines ["deg", " ."])
      = ⟨0, dialogue ["angle mode: degrees\n", (Error.invalidNumber "." 0).report ++ "\n"], ""⟩ ∧
    (forExpression .degrees " .").run "" = ⟨1, "", (Error.invalidNumber "." 1).report ++ "\n"⟩
  := by
  have hlines : ∀ l ∈ ["deg"], '\n' ∉ l.toList ∧ endsRun l = false := by decide +kernel
  have hline : '\n' ∉ " .".toList := by decide
  have hword : Text.lowercase (Text.trim " .") ∉ Command.words := by decide +kernel
  have hmode : modeAfter .radians ["deg"] = .degrees := by decide +kernel
  have hanswer : (forLines .radians).run (textOfLines ["deg", " ."])
      = ⟨0, dialogue ["angle mode: degrees\n", (Error.invalidNumber "." 0).report ++ "\n"], ""⟩ := by
    decide +kernel
  refine ⟨hlines, hline, hword, hmode, hanswer, ?_⟩
  apply ((run_line_iff_expression .radians hlines hline hword "").2.1
    (.invalidNumber "." 0)).mp hanswer

/-- A sign that begins no lexeme stands one byte further on in a given expression that begins with a
space than in the same line. -/
theorem Options.run_line_ne_expression :
  '\n' ∉ " $".toList ∧ Text.lowercase (Text.trim " $") ∉ Command.words ∧
    (forLines .radians).run (textOfLines [" $"])
      = ⟨0, dialogue ["Parse error: unexpected character, '$', at position 0\n"], ""⟩ ∧
    (forExpression .radians " $").run ""
      = ⟨1, "", "Parse error: unexpected character, '$', at position 1\n"⟩
  := by
  decide +kernel

end Calculator
