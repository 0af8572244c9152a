import Calculator.Program
import Mathlib.Data.List.DropRight

/-!
# Dialogues

What the program writes while it reads lines: a prompt, and for each line before the one that
ends the run the answer to the line and a prompt.  The answer to a line depends on the line
without the blanks around it and on the angle mode alone, and the mode is the one that was set
last (`Options.run_dialogue`).

* `Evaluator.respond_eq`: what one line does to an evaluator.
* `Evaluator.transcript_eq`: what a list of lines does.
* `answers_heard_eraseIdx`: a line that neither sets the mode nor ends the run can be left out
  together with its answer.
-/

namespace Calculator

/-! ### Lines -/

/-- The blanks at the two ends of a text are all cut off at once. -/
theorem Text.trim_trim (text : String) :
  trim (trim text) = trim text
  := by
  let inner := (text.toList.dropWhile isBlank).rdropWhile isBlank
  have htrim : trim text = String.ofList inner := rfl
  have hleft : inner.dropWhile isBlank = inner := by
    apply List.dropWhile_eq_self_iff.mpr
    intro hpos
    have hinner : inner <+: text.toList.dropWhile isBlank := List.rdropWhile_prefix _ _
    rw [hinner.getElem hpos]
    apply List.dropWhile_get_zero_not
  have hright : inner.rdropWhile isBlank = inner := List.rdropWhile_idempotent _ _
  have hagain : trim (String.ofList inner)
      = String.ofList ((inner.dropWhile isBlank).rdropWhile isBlank) := by
    rw [trim, String.toList_ofList]
    rfl
  rw [htrim, hagain, hleft, hright]

/-- The text that consists of given lines. -/
def textOfLines (lines : List String) : String :=
  String.join (lines.map (· ++ "\n"))

/-- A line that is followed by a line break is the first of the lines. -/
theorem splitLines_append {l : List Char} (hl : '\n' ∉ l) (cs : List Char) :
  splitLines (l ++ '\n' :: cs) = l :: splitLines cs
  := by
  induction l with
  | nil => simp [splitLines]
  | cons c l ih =>
    rw [List.mem_cons, not_or] at hl
    rw [List.cons_append, splitLines, if_neg (Ne.symm hl.1), ih hl.2]

/-- A line has no line break inside. -/
theorem newline_notMem_of_mem_splitLines :
  ∀ {cs l : List Char}, l ∈ splitLines cs → '\n' ∉ l
  | c :: cs, l, hl => by
      have ih : ∀ l ∈ splitLines cs, '\n' ∉ l := fun _ => newline_notMem_of_mem_splitLines
      rw [splitLines] at hl
      split at hl
      · rcases List.mem_cons.mp hl with rfl | hl
        · apply List.not_mem_nil
        · apply ih l hl
      · rename_i hc
        cases hlines : splitLines cs with
        | nil =>
          rw [hlines] at hl
          rw [List.mem_singleton.mp hl, List.mem_singleton]
          apply Ne.symm hc
        | cons line lines =>
          rw [hlines] at hl ih
          rcases List.mem_cons.mp hl with rfl | hl
          · rw [List.mem_cons, not_or]
            use Ne.symm hc
            apply ih line List.mem_cons_self
          · apply ih l (List.mem_cons_of_mem _ hl)

/-- A line has no line break inside. -/
theorem newline_notMem_of_mem_linesOf {text line : String} (h : line ∈ linesOf text) :
  '\n' ∉ line.toList
  := by
  obtain ⟨l, hl, rfl⟩ := List.mem_map.mp h
  rw [String.toList_ofList]
  apply newline_notMem_of_mem_splitLines hl

/-- Lines are read as they are written. -/
theorem linesOf_textOfLines {lines : List String} (h : ∀ line ∈ lines, '\n' ∉ line.toList) :
  linesOf (textOfLines lines) = lines
  := by
  induction lines with
  | nil => rfl
  | cons line lines ih =>
    have htext : (textOfLines (line :: lines)).toList
        = line.toList ++ '\n' :: (textOfLines lines).toList := by
      simp [textOfLines]
    have htail := ih fun l hl => h l (List.mem_cons_of_mem _ hl)
    rw [linesOf] at htail ⊢
    rw [htext, splitLines_append (h line List.mem_cons_self), List.map_cons, htail,
      String.ofList_toList]

/-! ### What lines do -/

/-- Whether a line ends the run. -/
def endsRun (line : String) : Bool :=
  ["quit", "exit", "q"].contains (Text.lowercase (Text.trim line))

/-- The mode that a line sets, if it sets one. -/
def modeSet? (line : String) : Option AngleMode :=
  AngleMode.ofName? (Text.trim line)

/-- The mode after some lines: the one that was set last. -/
def modeAfter (start : AngleMode) (lines : List String) : AngleMode :=
  (lines.filterMap modeSet?).getLast?.getD start

/-- What a new evaluator in a mode answers to a text. -/
def answer (mode : AngleMode) (text : String) : String :=
  (Evaluator.respond { mode } text).elim "" Prod.fst

/-- The lines that are answered: those before the first one that ends the run. -/
def heard (lines : List String) : List String :=
  lines.takeWhile fun line => !endsRun line

/-- The answers to some lines, each in the mode that was set last before it. -/
def answers (start : AngleMode) (lines : List String) : List String :=
  lines.mapIdx fun i line => answer (modeAfter start (lines.take i)) (Text.trim line)

/-- What is written with given answers: a prompt, and one more after each answer. -/
def dialogue (answers : List String) : String :=
  prompt ++ String.join (answers.map (· ++ prompt))

/-- The options with which the program reads lines and starts in a mode. -/
def Options.forLines (mode : AngleMode) : Options :=
  { degrees := decide (mode = .degrees) }

/-- The program starts in the mode that is asked for. -/
theorem Options.evaluator_forLines (mode : AngleMode) :
  (forLines mode).evaluator = { mode }
  := by
  cases mode <;> rfl

/-- Blanks around a line do not matter for the command. -/
theorem Command.ofLine_trim (line : String) :
  ofLine (Text.trim line) = ofLine line
  := by
  simp only [ofLine, Text.trim_trim]

/-- A line ends the run, sets a mode, or does neither. -/
theorem Command.ofLine_cases (line : String) :
  (endsRun line = true ∧ ofLine line = .quit) ∨
  (endsRun line = false ∧ ∃ mode : AngleMode, modeSet? line = some mode ∧
    ofLine line = .setMode mode) ∨
  (endsRun line = false ∧ modeSet? line = none ∧ ofLine line ≠ .quit ∧
    ∀ mode : AngleMode, ofLine line ≠ .setMode mode)
  := by
  simp only [endsRun, modeSet?, AngleMode.ofName?, ofLine]
  generalize Text.lowercase (Text.trim line) = text
  split
  case h_11 _ hquit hexit hq _ _ _ _ _ _ =>
    have hends : ¬text = "quit" ∧ ¬text = "exit" ∧ ¬text = "q" := ⟨hquit, hexit, hq⟩
    simpa using hends
  all_goals simp

/-- What one line does: it ends the run, or it is answered in the present mode and the mode that
it sets is the next one. -/
theorem Evaluator.respond_eq (mode : AngleMode) (line : String) :
  respond { mode } line
    = if endsRun line then none
      else some (answer mode (Text.trim line), { mode := (modeSet? line).getD mode })
  := by
  rw [answer, respond, respond, Command.ofLine_trim]
  rcases Command.ofLine_cases line with ⟨hends, hline⟩ | ⟨hends, set, hset, hline⟩ |
    ⟨hends, hset, hquit, hmode⟩
  · simp [hends, hline]
  · simp [hends, hset, hline]
  · cases hline : Command.ofLine line with
    | quit => cases hquit hline
    | setMode set => cases hmode set hline
    | nothing | showMode | listConstants | calculate text => simp [hends, hset]

/-- The mode after a line and further lines. -/
theorem modeAfter_cons (start : AngleMode) (line : String) (lines : List String) :
  modeAfter start (line :: lines) = modeAfter ((modeSet? line).getD start) lines
  := by
  rw [modeAfter, modeAfter]
  cases hset : modeSet? line with
  | none =>
    rw [List.filterMap_cons_none hset, Option.getD_none]
  | some mode =>
    rw [List.filterMap_cons_some hset, List.getLast?_cons, Option.getD_some, Option.getD_some]

/-- The answers to a line and further lines. -/
theorem answers_cons (start : AngleMode) (line : String) (lines : List String) :
  answers start (line :: lines)
    = answer start (Text.trim line) :: answers ((modeSet? line).getD start) lines
  := by
  simp only [answers, List.mapIdx_cons, List.take_succ_cons, modeAfter_cons]
  rfl

/-- What is written with one more answer. -/
theorem dialogue_cons (text : String) (answers : List String) :
  dialogue (text :: answers) = prompt ++ text ++ dialogue answers
  := by
  simp only [dialogue, List.map_cons, String.join_cons, String.append_assoc]

/-- The lines that are answered, from the first one on. -/
theorem heard_cons (line : String) (lines : List String) :
  heard (line :: lines) = if endsRun line then [] else line :: heard lines
  := by
  rw [heard, List.takeWhile_cons]
  cases endsRun line <;> rfl

/-- What a list of lines does. -/
theorem Evaluator.transcript_eq :
  ∀ (mode : AngleMode) (lines : List String),
    transcript { mode } lines = dialogue (answers mode (heard lines))
  | mode, [] => rfl
  | mode, line :: lines => by
      rw [transcript, respond_eq, heard_cons]
      cases endsRun line with
      | true => rfl
      | false =>
        simp only [Bool.false_eq_true, if_false]
        rw [answers_cons, dialogue_cons, transcript_eq _ lines]

/-- Leaving out a line that neither ends the run nor sets the mode leaves out its answer. -/
theorem answers_heard_eraseIdx (start : AngleMode) {lines : List String} {i : Nat}
    (hi : i < lines.length) (hends : endsRun lines[i] = false) (hset : modeSet? lines[i] = none) :
  answers start (heard (lines.eraseIdx i)) = (answers start (heard lines)).eraseIdx i
  := by
  induction lines generalizing start i with
  | nil => cases hi
  | cons line lines ih =>
    cases i with
    | zero =>
      rw [List.getElem_cons_zero] at hends hset
      rw [heard_cons, hends, if_neg Bool.false_ne_true, answers_cons, hset]
      rfl
    | succ i =>
      rw [List.getElem_cons_succ] at hends hset
      rw [List.eraseIdx_cons_succ, heard_cons, heard_cons]
      cases endsRun line with
      | true => rfl
      | false =>
        simp only [Bool.false_eq_true, if_false]
        rw [answers_cons, answers_cons, List.eraseIdx_cons_succ, ih _ _ hends hset]

/-- The program without an expression to evaluate reads lines. -/
theorem Options.run_forLines (start : AngleMode) (input : String) :
  (forLines start).run input
    = ⟨0, dialogue (answers start (heard (linesOf input))), ""⟩
  := by
  rw [← Evaluator.transcript_eq, ← evaluator_forLines]
  rfl

/-- What the program writes while it reads lines: a prompt, and for each line before the one that
ends the run the answer to it in the mode that was set last, and a prompt.  Without a line that
neither ends the run nor sets the mode it writes the same, except for the answer to this line and
the prompt after it. -/
theorem Options.run_dialogue (start : AngleMode) (input : String) :
  (forLines start).run input
    = ⟨0, dialogue (answers start (heard (linesOf input))), ""⟩ ∧
  ∀ (i : Nat) (hi : i < (linesOf input).length),
    endsRun (linesOf input)[i] = false → modeSet? (linesOf input)[i] = none →
    (forLines start).run (textOfLines ((linesOf input).eraseIdx i))
      = ⟨0, dialogue ((answers start (heard (linesOf input))).eraseIdx i), ""⟩
  := by
  constructor
  · apply run_forLines
  · intro i hi hends hset
    have hlines : ∀ line ∈ (linesOf input).eraseIdx i, '\n' ∉ line.toList := fun _ hline =>
      newline_notMem_of_mem_linesOf (List.mem_of_mem_eraseIdx hline)
    rw [run_forLines, linesOf_textOfLines hlines,
      answers_heard_eraseIdx start hi hends hset]

/-- A line that cannot be read as an expression is left out between two others. -/
theorem Options.run_dialogue_unreadable_line :
  linesOf "deg\n(\nmode\n" = ["deg", "(", "mode"] ∧ endsRun "(" = false ∧ modeSet? "(" = none ∧
    (forLines .radians).run (textOfLines ["deg", "mode"])
      = ⟨0, dialogue ((answers .radians (heard ["deg", "(", "mode"])).eraseIdx 1), ""⟩ ∧
    dialogue ((answers .radians (heard ["deg", "(", "mode"])).eraseIdx 1)
      = "> angle mode: degrees\n> angle mode: degrees\n> "
  := by
  have hlines : linesOf "deg\n(\nmode\n" = ["deg", "(", "mode"] := by decide +kernel
  have hends : endsRun "(" = false := by decide +kernel
  have hset : modeSet? "(" = none := by decide +kernel
  obtain ⟨-, hdelete⟩ := run_dialogue .radians "deg\n(\nmode\n"
  rw [hlines] at hdelete
  refine ⟨hlines, hends, hset, hdelete 1 (by decide) hends hset, ?_⟩
  decide +kernel

end Calculator
