import Calculator.Proofs.Token.LexicalGrammar

/-!
# Scanning by bytes

A scanner that holds a whole text and the byte offset up to which it was read.  It cuts what is left
of the text, and each literal, out of the bytes of the text, and a cut is checked: it has no result
where an end of it is beyond the text or inside a character.

* `Text.slice?_append`: a cut at the ends of a part gives this part.
* `countWhile_numberRun`, `countWhile_takeWhile`: the bytes by which the offset is moved are those
  of the longest run of characters.
-/

namespace Calculator

/-! ### Cuts -/

/-- The part of a text from one byte offset to another one, if both are between characters. -/
def Text.slice? (text : String) (start stop : Nat) : Option String :=
  if h : start ≤ stop ∧ String.Pos.Raw.IsValid text ⟨start⟩ ∧ String.Pos.Raw.IsValid text ⟨stop⟩ then
    some (text.extract ⟨⟨start⟩, h.2.1⟩ ⟨⟨stop⟩, h.2.2⟩)
  else none

/-- The end of a part of a text is between characters. -/
theorem Text.isValid_utf8ByteSize (before after : String) :
  String.Pos.Raw.IsValid (before ++ after) ⟨before.utf8ByteSize⟩
  := String.Pos.Raw.isValid_iff_exists_append.mpr ⟨before, after, rfl, rfl⟩

/-- A cut at the ends of a part of a text gives this part. -/
theorem Text.slice?_append (before part after : String) :
  slice? (before ++ part ++ after) before.utf8ByteSize (before.utf8ByteSize + part.utf8ByteSize)
    = some part
  := by
  have hstart : String.Pos.Raw.IsValid (before ++ part ++ after) ⟨before.utf8ByteSize⟩ := by
    rw [String.append_assoc]
    apply isValid_utf8ByteSize
  have hstop : String.Pos.Raw.IsValid (before ++ part ++ after)
      ⟨before.utf8ByteSize + part.utf8ByteSize⟩ := by
    rw [← String.utf8ByteSize_append]
    apply isValid_utf8ByteSize
  rw [slice?, dif_pos ⟨Nat.le_add_right _ _, hstart, hstop⟩]
  congr 1
  rw [← String.toByteArray_inj, String.toByteArray_extract, String.toByteArray_append,
    String.toByteArray_append, ByteArray.append_assoc]
  simp only [← String.size_toByteArray]
  apply (ByteArray.extract_append_size_add (i := 0)).trans (ByteArray.extract_append_eq_left rfl)

/-- A cut at the ends of a part of the characters of a text gives this part. -/
theorem Text.slice?_of_toList {text : String} {before part after : List Char}
    (h : text.toList = before ++ part ++ after) :
  slice? text (byteLength before) (byteLength before + byteLength part)
    = some (String.ofList part)
  := by
  have htext : text = String.ofList before ++ String.ofList part ++ String.ofList after := by
    rw [← String.ofList_append, ← String.ofList_append, ← h, String.ofList_toList]
  have hslice := slice?_append (String.ofList before) (String.ofList part) (String.ofList after)
  rw [utf8ByteSize_ofList, utf8ByteSize_ofList, ← htext] at hslice
  apply hslice

/-! ### Counts of bytes -/

variable {α : Type}

/-- The bytes of the longest run of characters at the front of a text that are accepted one after
the other.  What is accepted may depend on the characters before it. -/
def countWhile (accept : α → Char → Option α) (state : α) : List Char → Nat
  | [] => 0
  | c :: cs =>
    match accept state c with
    | some next => c.utf8Size + countWhile accept next cs
    | none => 0

/-- Accepts the characters of a class. -/
def acceptClass (p : Char → Bool) (_ : Unit) (c : Char) : Option Unit :=
  if p c then some () else none

/-- Accepts digits, and a point if none was seen before. -/
def acceptNumber (pointSeen : Bool) (c : Char) : Option Bool :=
  if c.isDigit then some pointSeen
  else if c == '.' && !pointSeen then some true
  else none

/-- The bytes of a run of characters of a class. -/
theorem countWhile_takeWhile (p : Char → Bool) (cs : List Char) :
  countWhile (acceptClass p) () cs = byteLength (cs.takeWhile p)
  := by
  induction cs with
  | nil => rfl
  | cons c cs ih =>
    rw [countWhile, acceptClass]
    cases hc : p c with
    | true =>
      rw [List.takeWhile_cons_of_pos hc, if_pos rfl]
      exact congrArg (c.utf8Size + ·) ih
    | false =>
      rw [List.takeWhile_cons_of_neg (ne_true_of_eq_false hc)]
      rfl

/-- The bytes of a run of a number. -/
theorem countWhile_numberRun (pointSeen : Bool) (cs : List Char) :
  countWhile acceptNumber pointSeen cs = byteLength (numberRun pointSeen cs).1
  := by
  induction cs generalizing pointSeen with
  | nil => rfl
  | cons c cs ih =>
    rw [countWhile, acceptNumber, numberRun]
    by_cases hdigit : c.isDigit = true
    · rw [if_pos hdigit, if_pos hdigit]
      exact congrArg (c.utf8Size + ·) (ih pointSeen)
    · rw [if_neg hdigit, if_neg hdigit]
      by_cases hpoint : (c == '.' && !pointSeen) = true
      · rw [if_pos hpoint, if_pos hpoint]
        exact congrArg (c.utf8Size + ·) (ih true)
      · rw [if_neg hpoint, if_neg hpoint]
        rfl

/-! ### The scanner -/

/-- A text, and how far it was read. -/
structure ByteScanner where
  text : String
  /-- The number of bytes that were read. -/
  index : Nat
  /-- Whether the end of the input or an error was reported. -/
  finished : Bool
deriving DecidableEq

namespace ByteScanner

/-- What is left of the text. -/
def view? (scanner : ByteScanner) : Option String :=
  Text.slice? scanner.text scanner.index scanner.text.utf8ByteSize

/-- The scanner a number of bytes further. -/
def advance (scanner : ByteScanner) (count : Nat) : ByteScanner :=
  { scanner with index := scanner.index + count }

/-- The scanner after the blanks where it stands. -/
def skipBlanks? (scanner : ByteScanner) : Option ByteScanner := do
  let view ← scanner.view?
  some (scanner.advance (countWhile (acceptClass Text.isBlank) () view.toList))

/-- The number that begins where a scanner stands, or that its literal is none. -/
def number? (scanner : ByteScanner) : Option (Except Error Token × ByteScanner) := do
  let view ← scanner.view?
  let count := countWhile acceptNumber false view.toList
  let literal ← Text.slice? scanner.text scanner.index (scanner.index + count)
  match numberValue? literal.toList with
  | some value => some (.ok (.number value), scanner.advance count)
  | none => some (.error (.invalidNumber literal scanner.index), scanner.advance count)

/-- The identifier that begins where a scanner stands. -/
def identifier? (scanner : ByteScanner) : Option (Token × ByteScanner) := do
  let view ← scanner.view?
  let count := countWhile (acceptClass continuesIdentifier) () view.toList
  let name ← Text.slice? scanner.text scanner.index (scanner.index + count)
  some (.identifier name, scanner.advance count)

/-- The token that begins with a given character where a scanner stands. -/
def lexeme? (scanner : ByteScanner) (c : Char) : Option (Except Error Token × ByteScanner) :=
  match singleToken? c with
  | some token => some (.ok token, scanner.advance 1)
  | none =>
    if c.isDigit || c == '.' then scanner.number?
    else if startsIdentifier c then
      scanner.identifier?.map fun (token, next) => (.ok token, next)
    else some (.error (.unexpectedCharacter c scanner.index), scanner)

/-- Reads one token.  The end of the input, or an error, is reported once; after that there is
nothing. -/
def next? (scanner : ByteScanner) : Option (Option (Except Error Token) × ByteScanner) :=
  if scanner.finished then some (none, scanner)
  else do
    let start ← scanner.skipBlanks?
    let view ← start.view?
    match view.toList.head? with
    | none => some (some (.ok .endOfInput), { start with finished := true })
    | some c =>
      let (answer, next) ← start.lexeme? c
      match answer with
      | .ok token => some (some (.ok token), next)
      | .error error => some (some (.error error), { next with finished := true })

end ByteScanner

end Calculator
