import Calculator.Error
import Calculator.Text.Alphanumeric
import Calculator.Text.Blank

/-!
# From text to tokens

A text is read from left to right.  Blanks are skipped; a parenthesis or an operator
symbol is a token of its own; digits with at most one point among them form a number;
an ASCII letter or an underscore begins an identifier, which goes on with letters and
numbers of any script and underscores.  Numbers and identifiers reach as far as they
can.  Positions count the bytes of the text in UTF-8.

`Scanner.next` reads one token, `tokenize` all of them; both rest on `Place.read`, which
leaves a shorter text each time.
-/

namespace Calculator

/-- The number of bytes that characters take in UTF-8. -/
def byteLength (cs : List Char) : Nat :=
  cs.foldr (fun c size => c.utf8Size + size) 0

/-- Whether a character can begin an identifier. -/
def startsIdentifier (c : Char) : Bool :=
  c.isAlpha || c == '_'

/-- Whether a character can stand in an identifier. -/
def continuesIdentifier (c : Char) : Bool :=
  Text.isAlphanumeric c || c == '_'

/-- The longest run of digits with at most one point at the front of a text, and the
rest; no point is taken once one was seen. -/
def numberRun (pointSeen : Bool) : List Char → List Char × List Char
  | [] => ([], [])
  | c :: cs =>
    if c.isDigit then
      let (run, rest) := numberRun pointSeen cs
      (c :: run, rest)
    else if c == '.' && !pointSeen then
      let (run, rest) := numberRun true cs
      (c :: run, rest)
    else ([], c :: cs)

/-- The natural number that digits spell. -/
def digitsValue (ds : List Char) : Nat :=
  ds.foldl (fun n d => 10 * n + (d.toNat - '0'.toNat)) 0

/-- The number nearest to the decimal that digits with at most one point spell, if there is
a digit. -/
def numberValue? (literal : List Char) : Option Float :=
  let whole := literal.takeWhile (· != '.')
  let decimals := (literal.dropWhile (· != '.')).drop 1
  if whole.isEmpty && decimals.isEmpty then none
  else some (Float.ofScientific (digitsValue (whole ++ decimals)) true decimals.length)

/-- The token that a character is by itself. -/
def singleToken? (c : Char) : Option Token :=
  if c = '(' then some .leftParen
  else if c = ')' then some .rightParen
  else if (Operator.ofSymbol? c).isSome then some (.operator c)
  else none

/-- A place in a text. -/
structure Place where
  /-- The number of bytes before the place. -/
  offset : Nat
  /-- The characters from the place on. -/
  rest : List Char
deriving DecidableEq

namespace Place

/-- The beginning of a text. -/
def ofText (text : String) : Place :=
  ⟨0, text.toList⟩

/-- The place after the blanks at a place. -/
def skipBlanks (place : Place) : Place :=
  ⟨place.offset + byteLength (place.rest.takeWhile Text.isBlank),
    place.rest.dropWhile Text.isBlank⟩

/-- The token that begins at a given offset with a given character, not a blank, and the
place after it. -/
def lexeme (offset : Nat) (c : Char) (cs : List Char) : Except Error (Token × Place) :=
  match singleToken? c with
  | some token => .ok (token, ⟨offset + byteLength [c], cs⟩)
  | none =>
    if c.isDigit || c == '.' then
      let run := numberRun false (c :: cs)
      match numberValue? run.1 with
      | some value => .ok (.number value, ⟨offset + byteLength run.1, run.2⟩)
      | none => .error (.invalidNumber (String.ofList run.1) offset)
    else if startsIdentifier c then
      let name := c :: cs.takeWhile continuesIdentifier
      .ok (.identifier (String.ofList name),
        ⟨offset + byteLength name, cs.dropWhile continuesIdentifier⟩)
    else .error (.unexpectedCharacter c offset)

/-- The token after the blanks at a place, and the place after it; nothing when only
blanks are left. -/
def read (place : Place) : Except Error (Option (Token × Place)) :=
  let start := place.skipBlanks
  match start.rest with
  | [] => .ok none
  | c :: cs => (lexeme start.offset c cs).map some

/-- The place up to which a text was read when an error is found at a place after blanks.  A number
is read to its end before it turns out to have no digit; a character that begins nothing is not
read. -/
def afterError (start : Place) : Error → Place
  | .invalidNumber .. =>
    let run := numberRun false start.rest
    ⟨start.offset + byteLength run.1, run.2⟩
  | _ => start

/-! ### Progress -/

/-- A digit goes on with a run. -/
theorem numberRun_digit {c : Char} (h : c.isDigit = true) (pointSeen : Bool) (cs : List Char) :
  numberRun pointSeen (c :: cs)
    = (c :: (numberRun pointSeen cs).1, (numberRun pointSeen cs).2)
  := by
  rw [numberRun, if_pos h]

/-- The first point goes on with a run. -/
theorem numberRun_point (cs : List Char) :
  numberRun false ('.' :: cs) = ('.' :: (numberRun true cs).1, (numberRun true cs).2)
  := rfl

/-- What follows a run is no longer than the text. -/
theorem length_numberRun_le (pointSeen : Bool) (cs : List Char) :
  (numberRun pointSeen cs).2.length ≤ cs.length
  := by
  induction cs generalizing pointSeen with
  | nil => exact Nat.le_refl 0
  | cons c cs ih =>
    rw [numberRun]
    split
    · exact Nat.le_succ_of_le (ih pointSeen)
    · split
      · exact Nat.le_succ_of_le (ih true)
      · exact Nat.le_refl _

/-- What follows a run that begins with a digit or a point is shorter than the text. -/
theorem length_numberRun_lt {c : Char} (h : (c.isDigit || c == '.') = true) (cs : List Char) :
  (numberRun false (c :: cs)).2.length < (c :: cs).length
  := by
  rcases Bool.or_eq_true _ _ ▸ h with hdigit | hpoint
  · rw [numberRun_digit hdigit]
    exact Nat.lt_succ_of_le (length_numberRun_le false cs)
  · rw [eq_of_beq hpoint, numberRun_point]
    exact Nat.lt_succ_of_le (length_numberRun_le true cs)

/-- What follows a lexeme is shorter than the text that begins with it. -/
theorem length_lexeme_lt {offset : Nat} {c : Char} {cs : List Char} {token : Token}
    {place : Place} (h : lexeme offset c cs = .ok (token, place)) :
  place.rest.length < (c :: cs).length
  := by
  unfold lexeme at h
  split at h
  · cases h
    simp
  · split at h
    · rename_i hc
      have hrun := length_numberRun_lt hc cs
      simp only at h
      split at h
      · cases h
        exact hrun
      · cases h
    · split at h
      · cases h
        have := (List.dropWhile_sublist continuesIdentifier (l := cs)).length_le
        simp only [List.length_cons]
        omega
      · cases h

/-- Each token that is read leaves a shorter rest. -/
theorem length_read_lt {place next : Place} {token : Token}
    (h : place.read = .ok (some (token, next))) :
  next.rest.length < place.rest.length
  := by
  have hskip := (List.dropWhile_sublist Text.isBlank (l := place.rest)).length_le
  simp only [read, skipBlanks] at h
  split at h
  · cases h
  · rename_i c cs heq
    rw [heq] at hskip
    cases hl : lexeme (place.offset + byteLength (place.rest.takeWhile Text.isBlank)) c cs with
    | error error => simp [hl, Except.map] at h
    | ok pair =>
      simp only [hl, Except.map, Except.ok.injEq, Option.some.injEq] at h
      subst h
      have := length_lexeme_lt hl
      omega

/-- All tokens from a place on, closed by the end of the input, or the first error. -/
def tokens (place : Place) : Except Error (List Token) :=
  match _h : place.read with
  | .error error => .error error
  | .ok none => .ok [.endOfInput]
  | .ok (some (token, next)) => next.tokens.map (token :: ·)
termination_by place.rest.length
decreasing_by exact length_read_lt _h

end Place

/-- All tokens of a text, closed by the end of the input, or the first error. -/
def tokenize (text : String) : Except Error (List Token) :=
  (Place.ofText text).tokens

/-! ### One token at a time -/

/-- A text that is read token by token. -/
structure Scanner where
  place : Place
  /-- Whether the end of the input or an error was reported. -/
  finished : Bool
deriving DecidableEq

namespace Scanner

/-- The scanner at the beginning of a text. -/
def ofText (text : String) : Scanner :=
  ⟨.ofText text, false⟩

/-- Reads one token.  The end of the input, or an error, is reported once; after that
there is nothing. -/
def next (scanner : Scanner) : Option (Except Error Token) × Scanner :=
  if scanner.finished then (none, scanner)
  else
    match scanner.place.read with
    | .error error => (some (.error error), ⟨scanner.place.skipBlanks.afterError error, true⟩)
    | .ok none => (some (.ok .endOfInput), ⟨scanner.place.skipBlanks, true⟩)
    | .ok (some (token, place)) => (some (.ok token), ⟨place, false⟩)

/-- The answers of a scanner to a number of requests. -/
def nexts (scanner : Scanner) : Nat → List (Option (Except Error Token))
  | 0 => []
  | count + 1 =>
    let (answer, scanner) := scanner.next
    answer :: scanner.nexts count

end Scanner

end Calculator
