import Calculator.Proofs.Token.Spelling
import Mathlib.Data.List.Count
import Mathlib.Data.List.TakeWhile

/-!
# The lexical grammar

`Lexeme l token` says which texts are lexemes and which token each of them denotes, and
`Splits text ts` that a text consists of lexemes with blanks around them, each of them as long
as it can be, and that the tokens `ts` are those of the lexemes and the end of the input.

Reading a text gives tokens exactly when the text splits into them.  Otherwise it fails at the
first place where no lexeme begins, and the text before that place splits
(`tokenize_eq_ok_iff_splits`).

* `numberRun_eq_iff`: the run of a number is the longest text of digits and at most one point.
* `Spells.append_lexeme`: a lexeme that ends before the rest is what the scanner reads there.
* `Place.readsLexeme_of_not_blank`: what the scanner reads at a character that is not blank is
  such a lexeme, or no lexeme begins there.
* `Place.read_cases` and `Place.tokens_cases`: what one step of the scanner does, and what all
  steps together do.
-/

namespace Calculator

/-! ### Lexemes -/

/-- The number nearest to the decimal that digits with at most one point spell. -/
def decimalValue (literal : List Char) : Float :=
  Float.ofScientific (digitsValue (literal.filter Char.isDigit)) true
    ((literal.dropWhile (· != '.')).length - 1)

/-- The lexemes and the tokens that they denote. -/
inductive Lexeme : List Char → Token → Prop where
  | leftParen : Lexeme ['('] .leftParen
  | rightParen : Lexeme [')'] .rightParen
  | operator (op : Operator) : Lexeme [op.symbol] (.operator op.symbol)
  | number {literal : List Char} :
      (∀ c ∈ literal, c.isDigit = true ∨ c = '.') → literal.count '.' ≤ 1 →
      (∃ c ∈ literal, c.isDigit = true) → Lexeme literal (.number (decimalValue literal))
  | identifier {c : Char} {cs : List Char} :
      startsIdentifier c = true → (∀ d ∈ cs, continuesIdentifier d = true) →
      Lexeme (c :: cs) (.identifier (String.ofList (c :: cs)))

/-- A text ends where the rest begins: the next character makes no lexeme of it. -/
def EndsBefore (l rest : List Char) : Prop :=
  ∀ c ∈ rest.head?, ∀ token : Token, ¬Lexeme (l ++ [c]) token

/-- Whether all characters of a text are blanks. -/
def AreBlanks (cs : List Char) : Prop :=
  ∀ c ∈ cs, Text.isBlank c = true

/-- The texts that consist of lexemes, each of them as long as it can be, with blanks before,
between and after them; and the tokens of the lexemes, closed by the end of the input. -/
inductive Splits : List Char → List Token → Prop where
  | blanks {ws : List Char} : AreBlanks ws → Splits ws [.endOfInput]
  | lexeme {ws l rest : List Char} {token : Token} {ts : List Token} :
      AreBlanks ws → Lexeme l token → EndsBefore l rest → Splits rest ts →
      Splits (ws ++ l ++ rest) (token :: ts)

/-- The texts that begin with no lexeme and no blank, and the errors for them at an offset: an
error for a character that begins no lexeme at all, and one for a point without a digit. -/
inductive Fault : List Char → Nat → Error → Prop where
  | character {c : Char} {rest : List Char} {offset : Nat} :
      Text.isBlank c = false → (∀ (cs : List Char) (token : Token), ¬Lexeme (c :: cs) token) →
      Fault (c :: rest) offset (.unexpectedCharacter c offset)
  | point {rest : List Char} {offset : Nat} :
      (∀ d ∈ rest.head?, d.isDigit = false) →
      Fault ('.' :: rest) offset (.invalidNumber "." offset)

/-! ### Bytes -/

/-- The bytes of two texts one after the other. -/
theorem byteLength_append (cs ds : List Char) :
  byteLength (cs ++ ds) = byteLength cs + byteLength ds
  := by
  induction cs with
  | nil => exact (Nat.zero_add _).symm
  | cons c cs ih =>
    rw [List.cons_append, byteLength, List.foldr_cons, ← byteLength, ih, ← Nat.add_assoc]
    rfl

/-- The bytes of the characters of a text are those of the text. -/
theorem utf8ByteSize_ofList (cs : List Char) :
  (String.ofList cs).utf8ByteSize = byteLength cs
  := by
  induction cs with
  | nil => rfl
  | cons c cs ih =>
    rw [← List.singleton_append, String.ofList_append, String.utf8ByteSize_append, ih,
      byteLength_append, ← String.singleton_eq_ofList, String.utf8ByteSize_singleton]
    rfl

/-! ### Numbers -/

/-- Digits with at most one point among them, and none once a point was seen. -/
structure IsNumberRun (pointSeen : Bool) (literal : List Char) : Prop where
  digits : ∀ c ∈ literal, c.isDigit = true ∨ c = '.'
  points : literal.count '.' + pointSeen.toNat ≤ 1

namespace IsNumberRun

/-- A run without characters. -/
theorem nil (pointSeen : Bool) :
  IsNumberRun pointSeen []
  := by
  constructor
  · intro c hc
    cases hc
  · cases pointSeen <;> decide

/-- A digit in front makes no difference. -/
theorem digit_iff {c : Char} (hc : c.isDigit = true) {pointSeen : Bool} {cs : List Char} :
  IsNumberRun pointSeen (c :: cs) ↔ IsNumberRun pointSeen cs
  := by
  have hne : c ≠ '.' := by
    rintro rfl
    cases hc
  constructor
  · rintro ⟨hdigits, hpoints⟩
    rw [List.count_cons_of_ne hne] at hpoints
    use fun d hd => hdigits d (List.mem_cons_of_mem c hd)
  · rintro ⟨hdigits, hpoints⟩
    constructor
    · intro d hd
      rcases List.mem_cons.mp hd with rfl | hd
      · left
        apply hc
      · apply hdigits d hd
    · rw [List.count_cons_of_ne hne]
      apply hpoints

/-- A point in front is the only one. -/
theorem point_iff {cs : List Char} :
  IsNumberRun false ('.' :: cs) ↔ IsNumberRun true cs
  := by
  constructor
  · rintro ⟨hdigits, hpoints⟩
    rw [List.count_cons_self] at hpoints
    use fun d hd => hdigits d (List.mem_cons_of_mem '.' hd), hpoints
  · rintro ⟨hdigits, hpoints⟩
    constructor
    · intro d hd
      rcases List.mem_cons.mp hd with rfl | hd
      · right
        rfl
      · apply hdigits d hd
    · rw [List.count_cons_self]
      apply hpoints

/-- No other character stands in front. -/
theorem false_of_cons {c : Char} {pointSeen : Bool} {cs : List Char} (hdigit : c.isDigit = false)
    (hpoint : c = '.' → pointSeen = true) (h : IsNumberRun pointSeen (c :: cs)) :
  False
  := by
  obtain ⟨hdigits, hpoints⟩ := h
  rcases hdigits c List.mem_cons_self with hc | rfl
  · rw [hdigit] at hc
    cases hc
  · rw [List.count_cons_self, hpoint rfl] at hpoints
    simp at hpoints

end IsNumberRun

/-- The longest run at the front of a text, and the rest. -/
structure IsLongestRun (pointSeen : Bool) (cs l rest : List Char) : Prop where
  eq : cs = l ++ rest
  isRun : IsNumberRun pointSeen l
  longest : ∀ d ∈ rest.head?, ¬IsNumberRun pointSeen (l ++ [d])

/-- A character that goes on with a run goes on with the longest one. -/
theorem IsLongestRun.cons_iff {pointSeen pointSeen' : Bool} {c : Char} {cs l rest : List Char}
    (h : ∀ ds : List Char, IsNumberRun pointSeen (c :: ds) ↔ IsNumberRun pointSeen' ds) :
  IsLongestRun pointSeen (c :: cs) l rest ↔
    ∃ ds : List Char, l = c :: ds ∧ IsLongestRun pointSeen' cs ds rest
  := by
  constructor
  · rintro ⟨heq, hrun, hend⟩
    cases l with
    | nil =>
      rw [List.nil_append] at heq
      subst heq
      cases hend c rfl ((h []).mpr (.nil pointSeen'))
    | cons d ds =>
      obtain ⟨rfl, rfl⟩ := List.cons.inj heq
      use ds, rfl, rfl, (h ds).mp hrun
      intro d hd hnext
      apply hend d hd ((h (ds ++ [d])).mpr hnext)
  · rintro ⟨ds, rfl, rfl, hrun, hend⟩
    use rfl, (h ds).mpr hrun
    intro d hd hnext
    apply hend d hd ((h (ds ++ [d])).mp hnext)

/-- A character that ends a run is no part of the longest one. -/
theorem IsLongestRun.stop_iff {pointSeen : Bool} {c : Char} {cs l rest : List Char}
    (h : ∀ ds : List Char, ¬IsNumberRun pointSeen (c :: ds)) :
  IsLongestRun pointSeen (c :: cs) l rest ↔ l = [] ∧ rest = c :: cs
  := by
  constructor
  · rintro ⟨heq, hrun, -⟩
    cases l with
    | nil => use rfl, heq.symm
    | cons d ds =>
      obtain ⟨rfl, -⟩ := List.cons.inj heq
      cases h ds hrun
  · rintro ⟨rfl, rfl⟩
    use rfl, .nil pointSeen
    intro d hd
    cases hd
    apply h

/-- The run of a number is the longest text of digits and at most one point. -/
theorem numberRun_eq_iff {pointSeen : Bool} {cs l rest : List Char} :
  numberRun pointSeen cs = (l, rest) ↔ IsLongestRun pointSeen cs l rest
  := by
  induction cs generalizing pointSeen l with
  | nil =>
    constructor
    · intro h
      cases h
      use rfl, .nil pointSeen
      intro d hd
      cases hd
    · rintro ⟨h, -⟩
      obtain ⟨rfl, rfl⟩ := List.nil_eq_append_iff.mp h
      rfl
  | cons c cs ih =>
    have hgoesOn : ∀ pointSeen' : Bool,
        (c :: (numberRun pointSeen' cs).1, (numberRun pointSeen' cs).2) = (l, rest) ↔
          ∃ ds : List Char, l = c :: ds ∧ IsLongestRun pointSeen' cs ds rest := by
      intro pointSeen'
      constructor
      · intro h
        cases h
        use (numberRun pointSeen' cs).1, rfl
        apply ih.mp rfl
      · rintro ⟨ds, rfl, hds⟩
        rw [ih.mpr hds]
    by_cases hdigit : c.isDigit = true
    · rw [Place.numberRun_digit hdigit, IsLongestRun.cons_iff fun ds => IsNumberRun.digit_iff hdigit]
      apply hgoesOn
    · rw [Bool.not_eq_true] at hdigit
      by_cases hpoint : c = '.' ∧ pointSeen = false
      · obtain ⟨rfl, rfl⟩ := hpoint
        rw [Place.numberRun_point, IsLongestRun.cons_iff fun ds => IsNumberRun.point_iff]
        apply hgoesOn
      · have hstop : ∀ ds : List Char, ¬IsNumberRun pointSeen (c :: ds) := by
          intro ds hrun
          apply hrun.false_of_cons hdigit
          intro hc
          simpa [hc] using hpoint
        have hrun : numberRun pointSeen (c :: cs) = ([], c :: cs) := by
          simp only [numberRun, hdigit, Bool.false_eq_true, if_false]
          rw [if_neg]
          simpa using hpoint
        rw [hrun, IsLongestRun.stop_iff hstop, Prod.mk.injEq, eq_comm, @eq_comm _ rest]

/-- A text of digits and points without a point consists of its digits. -/
theorem filter_isDigit_of_notMem {cs : List Char} (h : ∀ c ∈ cs, c.isDigit = true ∨ c = '.')
    (hpoint : '.' ∉ cs) :
  cs.filter Char.isDigit = cs
  := by
  apply List.filter_eq_self.mpr
  intro c hc
  rcases h c hc with hdigit | rfl
  · apply hdigit
  · cases hpoint hc

/-- The digits of a run are those before the point and those after it. -/
theorem IsNumberRun.filter_isDigit {literal : List Char} (h : IsNumberRun false literal) :
  literal.filter Char.isDigit
    = literal.takeWhile (· != '.') ++ (literal.dropWhile (· != '.')).drop 1
  := by
  obtain ⟨hdigits, hpoints⟩ := h
  have hwhole : '.' ∉ literal.takeWhile (· != '.') := by
    intro hmem
    have hne := List.mem_takeWhile_imp hmem
    simp at hne
  rw [← List.takeWhile_append_dropWhile (p := (· != '.')) (l := literal)] at hdigits hpoints
  conv_lhs => rw [← List.takeWhile_append_dropWhile (p := (· != '.')) (l := literal)]
  rw [List.filter_append, filter_isDigit_of_notMem
    (fun c hc => hdigits c (List.mem_append_left _ hc)) hwhole]
  congr 1
  cases htail : literal.dropWhile (· != '.') with
  | nil => rfl
  | cons c decimals =>
    have hc : c = '.' := by
      have hhead := List.head?_dropWhile_not (· != '.') literal
      simpa [htail] using hhead
    subst hc
    rw [htail] at hdigits hpoints
    have hdecimals : '.' ∉ decimals := by
      intro hmem
      rw [List.count_append, List.count_cons_self] at hpoints
      have hpos := List.count_pos_iff.mpr hmem
      omega
    rw [List.filter_cons_of_neg (by decide), List.drop_succ_cons, List.drop_zero]
    apply filter_isDigit_of_notMem _ hdecimals
    intro c hc
    apply hdigits c (List.mem_append_right _ (List.mem_cons_of_mem '.' hc))

/-- Digits with at most one point among them have a value if there is a digit. -/
theorem IsNumberRun.numberValue? {literal : List Char} (h : IsNumberRun false literal)
    (hdigit : ∃ c ∈ literal, c.isDigit = true) :
  Calculator.numberValue? literal = some (decimalValue literal)
  := by
  obtain ⟨c, hc, hdigit⟩ := hdigit
  have hmem : c ∈ literal.filter Char.isDigit := List.mem_filter.mpr ⟨hc, hdigit⟩
  rw [h.filter_isDigit] at hmem
  have hne : ((literal.takeWhile (· != '.')).isEmpty &&
      ((literal.dropWhile (· != '.')).drop 1).isEmpty) = false := by
    rw [Bool.eq_false_iff]
    intro hempty
    simp only [Bool.and_eq_true, List.isEmpty_iff] at hempty
    rw [hempty.1, hempty.2] at hmem
    cases hmem
  rw [decimalValue, h.filter_isDigit]
  simp only [Calculator.numberValue?, hne, Bool.false_eq_true, if_false, List.length_drop]

/-- Without a digit there is no value, and a run without a digit is a point. -/
theorem IsNumberRun.eq_point {c : Char} {cs : List Char} (h : IsNumberRun false (c :: cs))
    (hdigit : ¬∃ d ∈ c :: cs, d.isDigit = true) :
  c = '.' ∧ cs = []
  := by
  obtain ⟨hdigits, hpoints⟩ := h
  have hall : ∀ d ∈ c :: cs, d = '.' := by
    intro d hd
    apply (hdigits d hd).resolve_left
    intro hisDigit
    apply hdigit ⟨d, hd, hisDigit⟩
  obtain rfl := hall c List.mem_cons_self
  use rfl
  cases cs with
  | nil => rfl
  | cons d ds =>
    obtain rfl := hall d (List.mem_cons_of_mem _ List.mem_cons_self)
    simp at hpoints

/-! ### The first character of a lexeme -/

/-- A token of a single character begins nothing else. -/
theorem class_of_singleToken? {c : Char} {token : Token} (h : singleToken? c = some token) :
  Lexeme [c] token ∧ (c.isDigit || c == '.') = false ∧ startsIdentifier c = false
  := by
  unfold singleToken? at h
  split at h
  · rename_i hc
    cases h
    cases hc
    refine ⟨.leftParen, by decide, by decide⟩
  · split at h
    · rename_i hc
      cases h
      cases hc
      refine ⟨.rightParen, by decide, by decide⟩
    · split at h
      · rename_i hop
        cases h
        obtain ⟨op, hop⟩ := Option.isSome_iff_exists.mp hop
        cases (Operator.ofSymbol?_eq_some_iff c op).mp hop
        use .operator op
        cases op <;> decide
      · cases h

/-- A character of a number begins nothing else. -/
theorem class_of_number {c : Char} (h : (c.isDigit || c == '.') = true) :
  Text.isBlank c = false ∧ singleToken? c = none ∧ startsIdentifier c = false
  := by
  have hstart : startsIdentifier c = false := by
    by_contra hstart
    rw [Bool.not_eq_false] at hstart
    rw [(Spells.not_blank_of_startsIdentifier hstart).2.2] at h
    cases h
  rcases Bool.or_eq_true_iff.mp h with hdigit | hpoint
  · obtain ⟨hblank, hsingle⟩ := Spells.not_blank_of_isDigit hdigit
    use hblank, hsingle, hstart
  · cases eq_of_beq hpoint
    decide

/-- What a lexeme is, by its first character. -/
theorem Lexeme.cons_cases {c : Char} {cs : List Char} {token : Token} (h : Lexeme (c :: cs) token) :
  (singleToken? c = some token ∧ Text.isBlank c = false ∧ cs = []) ∨
  ((c.isDigit || c == '.') = true ∧ IsNumberRun false (c :: cs) ∧
    (∃ d ∈ c :: cs, d.isDigit = true) ∧ token = .number (decimalValue (c :: cs))) ∨
  (startsIdentifier c = true ∧ (∀ d ∈ cs, continuesIdentifier d = true) ∧
    token = .identifier (String.ofList (c :: cs)))
  := by
  cases h with
  | leftParen | rightParen =>
    left
    decide
  | operator op =>
    left
    cases op <;> decide
  | number hdigits hpoints hdigit =>
    right
    left
    have hrun : IsNumberRun false (c :: cs) := ⟨hdigits, hpoints⟩
    use by simpa using hdigits c List.mem_cons_self, hrun, hdigit
  | identifier hstart hname =>
    right
    right
    use hstart, hname

/-- Every lexeme has a first character. -/
theorem Lexeme.exists_cons {l : List Char} {token : Token} (h : Lexeme l token) :
  ∃ (c : Char) (cs : List Char), l = c :: cs
  := by
  cases h with
  | leftParen | rightParen | operator | identifier => refine ⟨_, _, rfl⟩
  | number _ _ hdigit =>
    obtain ⟨c, hc, -⟩ := hdigit
    apply List.exists_cons_of_ne_nil (List.ne_nil_of_mem hc)

/-! ### Where lexemes end -/

/-- A token of a single character ends at once. -/
theorem EndsBefore.single {c : Char} {token : Token} (h : singleToken? c = some token)
    (rest : List Char) :
  EndsBefore [c] rest
  := by
  obtain ⟨-, hnumber, hstart⟩ := class_of_singleToken? h
  intro d _ token' hlexeme
  rcases hlexeme.cons_cases with ⟨-, -, hnil⟩ | ⟨hnumber', -⟩ | ⟨hstart', -⟩
  · cases hnil
  · rw [hnumber] at hnumber'
    cases hnumber'
  · rw [hstart] at hstart'
    cases hstart'

/-- A number ends where its run does. -/
theorem EndsBefore.number {c : Char} {cs rest : List Char} (hc : (c.isDigit || c == '.') = true)
    (hend : ∀ d ∈ rest.head?, ¬IsNumberRun false (c :: cs ++ [d])) :
  EndsBefore (c :: cs) rest
  := by
  obtain ⟨-, -, hstart⟩ := class_of_number hc
  intro d hd token hlexeme
  rcases hlexeme.cons_cases with ⟨-, -, hnil⟩ | ⟨-, hrun, -⟩ | ⟨hstart', -⟩
  · cases List.append_ne_nil_of_right_ne_nil _ (List.cons_ne_nil _ _) hnil
  · apply hend d hd hrun
  · rw [hstart] at hstart'
    cases hstart'

/-- An identifier ends where no character continues it. -/
theorem EndsBefore.identifier {c : Char} {cs rest : List Char} (hc : startsIdentifier c = true)
    (hend : ∀ d ∈ rest.head?, continuesIdentifier d = false) :
  EndsBefore (c :: cs) rest
  := by
  obtain ⟨-, -, hnumber⟩ := Spells.not_blank_of_startsIdentifier hc
  intro d hd token hlexeme
  rcases hlexeme.cons_cases with ⟨-, -, hnil⟩ | ⟨hnumber', -⟩ | ⟨-, hname, -⟩
  · cases List.append_ne_nil_of_right_ne_nil _ (List.cons_ne_nil _ _) hnil
  · rw [hnumber] at hnumber'
    cases hnumber'
  · have hcontinues := hname d (List.mem_append_right cs List.mem_cons_self)
    rw [hend d hd] at hcontinues
    cases hcontinues

/-- A lexeme that ends where the rest begins is read as its token. -/
theorem Spells.append_lexeme {l rest : List Char} {token : Token} {ts : List Token}
    (hl : Lexeme l token) (hend : EndsBefore l rest) (h : Spells rest ts) :
  Spells (l ++ rest) (token :: ts)
  := by
  obtain ⟨c, cs, rfl⟩ := hl.exists_cons
  rcases hl.cons_cases with ⟨hsingle, hblank, rfl⟩ | ⟨hc, hrun, hdigit, rfl⟩ | ⟨hc, hname, rfl⟩
  · apply single hblank hsingle h
  · obtain ⟨hblank, hsingle, -⟩ := class_of_number hc
    have hnumber : numberRun false (c :: cs ++ rest) = (c :: cs, rest) := by
      apply numberRun_eq_iff.mpr
      use rfl, hrun
      intro d hd hnext
      obtain ⟨e, he, hdigit⟩ := hdigit
      apply hend d hd _ (.number hnext.digits hnext.points ⟨e, List.mem_append_left _ he, hdigit⟩)
    rw [List.cons_append] at hnumber ⊢
    apply lexeme hblank _ h
    intro offset
    use offset + byteLength (c :: cs)
    simp only [Place.lexeme, hsingle, hc, if_true, hnumber, hrun.numberValue? hdigit]
  · apply identifier hc hname _ h
    intro d hd
    by_contra hcontinues
    rw [Bool.not_eq_false] at hcontinues
    apply hend d hd _ (.identifier hc _)
    intro e he
    rcases List.mem_append.mp he with he | he
    · apply hname e he
    · cases List.mem_singleton.mp he
      apply hcontinues

/-- Blanks in front of a text change nothing. -/
theorem Spells.append_blanks {ws cs : List Char} {ts : List Token} (hws : AreBlanks ws)
    (h : Spells cs ts) :
  Spells (ws ++ cs) ts
  := by
  induction ws with
  | nil => apply h
  | cons w ws ih =>
    apply blank (hws w List.mem_cons_self)
    apply ih fun c hc => hws c (List.mem_cons_of_mem w hc)

/-- A text that splits into tokens is read as these tokens. -/
theorem Splits.spells {cs : List Char} {ts : List Token} (h : Splits cs ts) :
  Spells cs ts
  := by
  induction h with
  | @blanks ws hws =>
    rw [← List.append_nil ws]
    apply Spells.append_blanks hws .nil
  | lexeme hws hl hend _ ih =>
    rw [List.append_assoc]
    apply Spells.append_blanks hws (.append_lexeme hl hend ih)

/-! ### One step -/

/-- The run of a number that begins with a digit or a point has this first character. -/
theorem exists_numberRun {c : Char} (hc : (c.isDigit || c == '.') = true) (cs : List Char) :
  ∃ ds rest : List Char, numberRun false (c :: cs) = (c :: ds, rest)
  := by
  have hone : IsNumberRun false [c] := by
    rcases Bool.or_eq_true_iff.mp hc with hdigit | hpoint
    · apply (IsNumberRun.digit_iff hdigit).mpr (.nil false)
    · rw [eq_of_beq hpoint]
      apply IsNumberRun.point_iff.mpr (.nil true)
  obtain ⟨l, rest, hrun⟩ : ∃ l rest : List Char, numberRun false (c :: cs) = (l, rest) :=
    ⟨_, _, rfl⟩
  obtain ⟨heq, -, hend⟩ := numberRun_eq_iff.mp hrun
  cases l with
  | nil =>
    rw [List.nil_append] at heq
    cases hend c (heq ▸ rfl) hone
  | cons d ds =>
    obtain ⟨rfl, -⟩ := List.cons.inj heq
    use ds, rest, hrun

namespace Place

/-- What may be read where a lexeme should begin: the longest lexeme, or a fault. -/
def ReadsLexeme (offset : Nat) (c : Char) (cs : List Char) : Prop :=
  (∃ (l rest : List Char) (token : Token), c :: cs = l ++ rest ∧ Lexeme l token ∧
    EndsBefore l rest ∧ lexeme offset c cs = .ok (token, ⟨offset + byteLength l, rest⟩)) ∨
  ∃ error : Error, lexeme offset c cs = .error error ∧ Fault (c :: cs) offset error

/-- A digit or a point begins a number, unless it is a point without a digit. -/
theorem readsLexeme_number {c : Char} (hc : (c.isDigit || c == '.') = true) (offset : Nat)
    (cs : List Char) :
  ReadsLexeme offset c cs
  := by
  obtain ⟨-, hsingle, -⟩ := class_of_number hc
  obtain ⟨ds, rest, hnumber⟩ := exists_numberRun hc cs
  obtain ⟨heq, hrun, hend⟩ := numberRun_eq_iff.mp hnumber
  by_cases hdigit : ∃ d ∈ c :: ds, d.isDigit = true
  · left
    use c :: ds, rest, .number (decimalValue (c :: ds)), heq,
      .number hrun.digits hrun.points hdigit, .number hc hend
    simp only [lexeme, hsingle, hc, if_true, hnumber, hrun.numberValue? hdigit]
  · right
    obtain ⟨rfl, rfl⟩ := hrun.eq_point hdigit
    obtain rfl := (List.cons.inj heq).2
    use .invalidNumber "." offset
    constructor
    · simp only [lexeme, hsingle, hc, if_true, hnumber]
      rfl
    · apply Fault.point
      intro d hd
      by_contra hdigit
      rw [Bool.not_eq_false] at hdigit
      apply hend d hd
      apply IsNumberRun.point_iff.mpr
      apply (IsNumberRun.digit_iff hdigit).mpr (.nil true)

/-- A letter or an underscore begins an identifier. -/
theorem readsLexeme_identifier {c : Char} (hc : startsIdentifier c = true) (offset : Nat)
    (cs : List Char) :
  ReadsLexeme offset c cs
  := by
  obtain ⟨-, hsingle, hnumber⟩ := Spells.not_blank_of_startsIdentifier hc
  have hend : ∀ d ∈ (cs.dropWhile continuesIdentifier).head?, continuesIdentifier d = false := by
    intro d hd
    have hhead := List.head?_dropWhile_not continuesIdentifier cs
    rw [hd] at hhead
    apply hhead
  left
  use c :: cs.takeWhile continuesIdentifier, cs.dropWhile continuesIdentifier,
    .identifier (String.ofList (c :: cs.takeWhile continuesIdentifier))
  refine ⟨?_, .identifier hc fun d hd => List.mem_takeWhile_imp hd, .identifier hc hend, ?_⟩
  · rw [List.cons_append, List.takeWhile_append_dropWhile]
  · simp [lexeme, hsingle, hnumber, hc]

/-- What is read where no blank stands is the longest lexeme there, or a fault. -/
theorem readsLexeme_of_not_blank {c : Char} (hblank : Text.isBlank c = false) (offset : Nat)
    (cs : List Char) :
  ReadsLexeme offset c cs
  := by
  cases hsingle : singleToken? c with
  | some token =>
    left
    use [c], cs, token, rfl, (class_of_singleToken? hsingle).1, .single hsingle cs
    rw [lexeme, hsingle]
  | none =>
    cases hnumber : (c.isDigit || c == '.') with
    | true => apply readsLexeme_number hnumber
    | false =>
      cases hstart : startsIdentifier c with
      | true => apply readsLexeme_identifier hstart
      | false =>
        right
        use .unexpectedCharacter c offset
        constructor
        · simp [lexeme, hsingle, hnumber, hstart]
        · apply Fault.character hblank
          intro ds token h
          rcases h.cons_cases with ⟨hsingle', -⟩ | ⟨hnumber', -⟩ | ⟨hstart', -⟩
          · simp [hsingle] at hsingle'
          · simp [hnumber] at hnumber'
          · simp [hstart] at hstart'

/-- One step skips blanks, and then finds the end of the text, a lexeme that is as long as it
can be, or a fault. -/
theorem read_cases (place : Place) :
  (place.read = .ok none ∧ AreBlanks place.rest) ∨
  (∃ (ws l rest : List Char) (token : Token), place.rest = ws ++ l ++ rest ∧ AreBlanks ws ∧
    Lexeme l token ∧ EndsBefore l rest ∧
    place.read = .ok (some (token, ⟨place.offset + byteLength (ws ++ l), rest⟩))) ∨
  ∃ (ws after : List Char) (error : Error), place.rest = ws ++ after ∧ AreBlanks ws ∧
    place.read = .error error ∧ Fault after (place.offset + byteLength ws) error
  := by
  have hws : AreBlanks (place.rest.takeWhile Text.isBlank) :=
    fun c hc => List.mem_takeWhile_imp hc
  have heq : place.rest.takeWhile Text.isBlank ++ place.rest.dropWhile Text.isBlank = place.rest :=
    List.takeWhile_append_dropWhile
  cases hrest : place.rest.dropWhile Text.isBlank with
  | nil =>
    left
    constructor
    · simp [read, skipBlanks, hrest]
    · apply List.dropWhile_eq_nil_iff.mp hrest
  | cons c cs =>
    right
    have hblank : Text.isBlank c = false := by
      have hhead := List.head?_dropWhile_not Text.isBlank place.rest
      rw [hrest] at hhead
      apply hhead
    rw [hrest] at heq
    rcases readsLexeme_of_not_blank hblank
      (place.offset + byteLength (place.rest.takeWhile Text.isBlank)) cs with
      ⟨l, rest, token, hcs, hl, hend, hread⟩ | ⟨error, hread, hfault⟩
    · left
      use place.rest.takeWhile Text.isBlank, l, rest, token
      refine ⟨?_, hws, hl, hend, ?_⟩
      · rw [List.append_assoc, ← hcs, heq]
      · rw [byteLength_append, ← Nat.add_assoc]
        simp [read, skipBlanks, hrest, hread, Except.map]
    · right
      use place.rest.takeWhile Text.isBlank, c :: cs, error, heq.symm, hws
      refine ⟨?_, hfault⟩
      simp [read, skipBlanks, hrest, hread, Except.map]

/-! ### All steps -/

/-- All steps together split the text, or split it up to the first fault. -/
theorem tokens_cases (place : Place) :
  (∃ ts : List Token, place.tokens = .ok ts ∧ Splits place.rest ts) ∨
  ∃ (before after : List Char) (ts : List Token) (error : Error), place.rest = before ++ after ∧
    Splits before ts ∧ place.tokens = .error error ∧
    Fault after (place.offset + byteLength before) error
  := by
  induction hn : place.rest.length using Nat.strongRecOn generalizing place with
  | ind n ih =>
    rcases place.read_cases with ⟨hread, hblanks⟩ |
      ⟨ws, l, rest, token, heq, hws, hl, hend, hread⟩ | ⟨ws, after, error, heq, hws, hread, hfault⟩
    · left
      use [.endOfInput], tokens_of_read_none hread, .blanks hblanks
    · rw [tokens_of_read_some hread]
      have hlt := length_read_lt hread
      rcases ih _ (hn ▸ hlt) ⟨_, rest⟩ rfl with
        ⟨ts, htokens, hsplits⟩ | ⟨before, after, ts, error, hrest, hsplits, htokens, hfault⟩
      · left
        use token :: ts
        rw [htokens, heq]
        use rfl, .lexeme hws hl hend hsplits
      · right
        use ws ++ l ++ before, after, token :: ts, error
        simp only at hrest
        refine ⟨?_, .lexeme hws hl ?_ hsplits, ?_, ?_⟩
        · rw [heq, hrest, List.append_assoc _ before]
        · intro c hc
          apply hend c
          rw [hrest, List.head?_append, hc]
          rfl
        · rw [htokens]
          rfl
        · rw [byteLength_append, ← Nat.add_assoc]
          apply hfault
    · right
      use ws, after, [.endOfInput], error, heq, .blanks hws, tokens_of_read_error hread, hfault

end Place

/-- Every fault is a lexical error. -/
theorem Fault.kind_eq {cs : List Char} {offset : Nat} {error : Error} (h : Fault cs offset error) :
  error.kind = .lexical
  := by
  cases h <;> rfl

/-- What is reported for a text that cannot be read is a lexical error. -/
theorem kind_of_tokenize {text : String} {error : Error} (h : tokenize text = .error error) :
  error.kind = .lexical
  := by
  rcases (Place.ofText text).tokens_cases with ⟨ts, htokens, -⟩ |
    ⟨_, _, _, error', -, -, htokens, hfault⟩
  · cases htokens.symm.trans h
  · cases htokens.symm.trans h
    apply hfault.kind_eq

/-- A text that splits into the end of the input alone is blank. -/
theorem Splits.areBlanks {cs : List Char} (h : Splits cs [.endOfInput]) :
  AreBlanks cs
  := by
  cases h with
  | blanks hblanks => apply hblanks
  | lexeme _ hl _ _ => cases hl

/-- A text that has no token but the end of the input is blank. -/
theorem areBlanks_of_tokenize {text : String} (h : tokenize text = .ok [.endOfInput]) :
  AreBlanks text.toList
  := by
  rcases (Place.ofText text).tokens_cases with ⟨ts, htokens, hsplits⟩ |
    ⟨-, -, -, error, -, -, htokens, -⟩
  · cases htokens.symm.trans h
    apply hsplits.areBlanks
  · cases htokens.symm.trans h

/-- A text is read as the tokens into which it splits.  A text that does not split is an error
at the offset of the first fault, and the text before it is read without error. -/
theorem tokenize_eq_ok_iff_splits (text : String) :
  (∀ ts : List Token, tokenize text = .ok ts ↔ Splits text.toList ts) ∧
  ((∃ ts : List Token, tokenize text = .ok ts) ∨
    ∃ (before after : String) (error : Error), text = before ++ after ∧
      (∃ ts : List Token, tokenize before = .ok ts) ∧ tokenize text = .error error ∧
      Fault after.toList before.utf8ByteSize error)
  := by
  constructor
  · intro ts
    constructor
    · intro h
      rcases (Place.ofText text).tokens_cases with ⟨ts', htokens, hsplits⟩ |
        ⟨-, -, -, error, -, -, htokens, -⟩
      · cases htokens.symm.trans h
        apply hsplits
      · cases htokens.symm.trans h
    · intro h
      apply h.spells 0
  · rcases (Place.ofText text).tokens_cases with ⟨ts, htokens, -⟩ |
      ⟨before, after, ts, error, htext, hsplits, htokens, hfault⟩
    · left
      use ts, htokens
    · right
      use String.ofList before, String.ofList after, error
      refine ⟨?_, ⟨ts, ?_⟩, htokens, ?_⟩
      · rw [← String.ofList_append, ← htext]
        exact String.ofList_toList.symm
      · have hspells := hsplits.spells 0
        rw [tokenize, Place.ofText, String.toList_ofList]
        apply hspells
      · rw [String.toList_ofList, utf8ByteSize_ofList]
        rw [Place.ofText, Nat.zero_add] at hfault
        apply hfault

end Calculator
