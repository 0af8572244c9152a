import Calculator.Proofs.Token.Bytes

/-!
# Scanning token by token

A scanner stays in its text, moves forward with each token, and comes to an end
(`Scanner.stays_in_text_and_ends`).

* `Place.IsIn`: a place splits the text into what was read and what is left, and its offset counts
  the bytes of the first part.  Each call keeps this (`Scanner.isIn_next`), so every cut out of the
  text that a scanner makes is between characters.
* `Scanner.next?_onBytes`: so the scanner that cuts the bytes of the text always has a result, and
  it is the same.
* `Place.exists_answers`: the answers are the tokens of the text, then the end of the input or an
  error, and nothing after that.
-/

namespace Calculator

/-! ### Places in a text -/

/-- Whether a place is between two characters of a text, and what is left there is the rest of the
text. -/
def Place.IsIn (place : Place) (text : String) : Prop :=
  ∃ before : List Char, text.toList = before ++ place.rest ∧ place.offset = byteLength before

namespace Place.IsIn

variable {place : Place} {text : String}

/-- The beginning of a text is in it. -/
theorem ofText (text : String) :
  (Place.ofText text).IsIn text
  := ⟨[], rfl, rfl⟩

/-- A place after characters that are left is in the text, too. -/
theorem advance (h : place.IsIn text) {cs rest : List Char} (hrest : place.rest = cs ++ rest) :
  (Place.mk (place.offset + byteLength cs) rest).IsIn text
  := by
  obtain ⟨before, htext, hoffset⟩ := h
  use before ++ cs
  rw [htext, hrest, hoffset, List.append_assoc, byteLength_append]
  exact ⟨rfl, rfl⟩

/-- Characters that are left are cut out of the text at their bytes. -/
theorem slice? (h : place.IsIn text) {cs rest : List Char} (hrest : place.rest = cs ++ rest) :
  Text.slice? text place.offset (place.offset + byteLength cs) = some (String.ofList cs)
  := by
  obtain ⟨before, htext, hoffset⟩ := h
  rw [hrest, ← List.append_assoc] at htext
  rw [hoffset]
  apply Text.slice?_of_toList htext

/-- The bytes of a text are those before a place and those after it. -/
theorem utf8ByteSize_eq (h : place.IsIn text) :
  text.utf8ByteSize = place.offset + byteLength place.rest
  := by
  obtain ⟨before, htext, hoffset⟩ := h
  rw [hoffset, ← byteLength_append, ← htext, ← utf8ByteSize_ofList, String.ofList_toList]

/-- What is left is cut out of the text. -/
theorem view? (h : place.IsIn text) :
  Text.slice? text place.offset text.utf8ByteSize = some (String.ofList place.rest)
  := by
  rw [h.utf8ByteSize_eq]
  apply h.slice? (List.append_nil _).symm

/-- An offset of a place is between characters of the text. -/
theorem isValid (h : place.IsIn text) :
  String.Pos.Raw.IsValid text ⟨place.offset⟩
  := by
  obtain ⟨before, htext, hoffset⟩ := h
  rw [← String.ofList_toList (s := text), htext, String.ofList_append, hoffset,
    ← utf8ByteSize_ofList]
  apply Text.isValid_utf8ByteSize

/-- Skipping blanks stays in the text. -/
theorem skipBlanks (h : place.IsIn text) :
  place.skipBlanks.IsIn text
  := h.advance List.takeWhile_append_dropWhile.symm

/-- What is read for an error stays in the text. -/
theorem afterError (h : place.IsIn text) (error : Error) :
  (place.afterError error).IsIn text
  := by
  have hrun := numberRun_eq_iff.mp (rfl : numberRun false place.rest = _)
  cases error with
  | invalidNumber literal offset => apply h.advance hrun.eq
  | _ => apply h

/-- Reading a token stays in the text. -/
theorem read (h : place.IsIn text) {next : Place} {token : Token}
    (hread : place.read = .ok (some (token, next))) :
  next.IsIn text
  := by
  rcases place.read_cases with ⟨hnone, -⟩ | ⟨ws, l, rest, token', heq, -, -, -, hsome⟩ |
    ⟨-, -, error, -, -, herror, -⟩
  · cases hnone.symm.trans hread
  · cases hsome.symm.trans hread
    apply h.advance heq
  · cases herror.symm.trans hread

end Place.IsIn

/-! ### The same by bytes -/

/-- The scanner that stands at a place of a text. -/
def Place.onBytes (place : Place) (text : String) : ByteScanner :=
  ⟨text, place.offset, false⟩

/-- A token of a single character takes one byte. -/
theorem byteLength_of_singleToken? {c : Char} {token : Token} (h : singleToken? c = some token) :
  byteLength [c] = 1
  := by
  unfold singleToken? at h
  split at h
  · rename_i hc
    cases hc
    rfl
  · split at h
    · rename_i hc
      cases hc
      rfl
    · split at h
      · rename_i hop
        obtain ⟨op, hop⟩ := Option.isSome_iff_exists.mp hop
        cases (Operator.ofSymbol?_eq_some_iff c op).mp hop
        cases op <;> rfl
      · cases h

/-- A character that begins an identifier can stand in one. -/
theorem continuesIdentifier_of_startsIdentifier {c : Char} (hc : startsIdentifier c = true) :
  continuesIdentifier c = true
  := by
  have hascii := Spells.toNat_lt_of_startsIdentifier hc
  revert hc
  apply Text.forall_ascii _ hascii
  decide +kernel

namespace Place.IsIn

variable {place : Place} {text : String}

/-- Blanks are skipped by their bytes. -/
theorem skipBlanks?_onBytes (h : place.IsIn text) :
  (place.onBytes text).skipBlanks? = some (place.skipBlanks.onBytes text)
  := by
  rw [ByteScanner.skipBlanks?, ByteScanner.view?, onBytes, h.view?, Option.bind_eq_bind,
    Option.bind_some, String.toList_ofList, countWhile_takeWhile]
  rfl

/-- A number is cut out of the text. -/
theorem number?_onBytes (h : place.IsIn text) :
  (place.onBytes text).number?
    = some (match numberValue? (numberRun false place.rest).1 with
      | some value => (.ok (.number value),
          onBytes ⟨place.offset + byteLength (numberRun false place.rest).1,
            (numberRun false place.rest).2⟩ text)
      | none => (.error (.invalidNumber (String.ofList (numberRun false place.rest).1) place.offset),
          onBytes ⟨place.offset + byteLength (numberRun false place.rest).1,
            (numberRun false place.rest).2⟩ text))
  := by
  have hrun := numberRun_eq_iff.mp (rfl : numberRun false place.rest = _)
  simp only [ByteScanner.number?, ByteScanner.view?, onBytes, h.view?, Option.bind_eq_bind,
    Option.bind_some, String.toList_ofList, countWhile_numberRun, h.slice? hrun.eq]
  cases numberValue? (numberRun false place.rest).1 <;> rfl

/-- An identifier is cut out of the text. -/
theorem identifier?_onBytes (h : place.IsIn text) :
  (place.onBytes text).identifier?
    = some (.identifier (String.ofList (place.rest.takeWhile continuesIdentifier)),
        onBytes ⟨place.offset + byteLength (place.rest.takeWhile continuesIdentifier),
          place.rest.dropWhile continuesIdentifier⟩ text)
  := by
  have hname : place.rest = place.rest.takeWhile continuesIdentifier
      ++ place.rest.dropWhile continuesIdentifier := List.takeWhile_append_dropWhile.symm
  simp only [ByteScanner.identifier?, ByteScanner.view?, onBytes, h.view?, Option.bind_eq_bind,
    Option.bind_some, String.toList_ofList, countWhile_takeWhile, h.slice? hname]
  rfl

/-- A lexeme, or an error, is found by bytes as it is by characters. -/
theorem lexeme?_onBytes (h : place.IsIn text) {c : Char} {cs : List Char}
    (hrest : place.rest = c :: cs) :
  (place.onBytes text).lexeme? c
    = some (match lexeme place.offset c cs with
      | .ok (token, next) => (.ok token, next.onBytes text)
      | .error error => (.error error, (place.afterError error).onBytes text))
  := by
  obtain ⟨offset, rest⟩ := place
  subst hrest
  rw [ByteScanner.lexeme?, lexeme]
  cases hsingle : singleToken? c with
  | some token =>
    simp only [byteLength_of_singleToken? hsingle]
    rfl
  | none =>
    cases hnumber : c.isDigit || c == '.' with
    | true =>
      simp only [if_true, h.number?_onBytes]
      cases numberValue? (numberRun false (c :: cs)).1 <;> rfl
    | false =>
      cases hstart : startsIdentifier c with
      | true =>
        have hname : continuesIdentifier c = true := continuesIdentifier_of_startsIdentifier hstart
        simp only [Bool.false_eq_true, if_false, if_true, h.identifier?_onBytes,
          List.takeWhile_cons_of_pos hname, List.dropWhile_cons_of_pos hname]
        rfl
      | false => rfl

end Place.IsIn

/-! ### One call -/

namespace Scanner

/-- The scanner that stands where another one does, by bytes. -/
def onBytes (scanner : Scanner) (text : String) : ByteScanner :=
  { scanner.place.onBytes text with finished := scanner.finished }

/-- A scanner after a number of calls. -/
def after (scanner : Scanner) : Nat → Scanner
  | 0 => scanner
  | count + 1 => (scanner.after count).next.2

variable {scanner : Scanner} {text : String}

/-- A call stays in the text. -/
theorem isIn_next (h : scanner.place.IsIn text) :
  scanner.next.2.place.IsIn text
  := by
  rw [next]
  split
  · apply h
  · split
    · apply h.skipBlanks.afterError
    · apply h.skipBlanks
    · rename_i hread
      apply h.read hread

/-- All calls stay in the text. -/
theorem isIn_after (h : scanner.place.IsIn text) (count : Nat) :
  (scanner.after count).place.IsIn text
  := by
  induction count with
  | zero => apply h
  | succ count ih => apply isIn_next ih

/-- A call has the same answer by bytes, and leaves the scanner at the same place. -/
theorem next?_onBytes (h : scanner.place.IsIn text) :
  (scanner.onBytes text).next? = some (scanner.next.1, scanner.next.2.onBytes text)
  := by
  obtain ⟨place, finished⟩ := scanner
  cases finished with
  | true => rfl
  | false =>
    have hview : (place.skipBlanks.onBytes text).view?
        = some (String.ofList place.skipBlanks.rest) := h.skipBlanks.view?
    change ((place.onBytes text).skipBlanks?.bind fun start => _) = _
    rw [h.skipBlanks?_onBytes, Option.bind_some, hview]
    rw [Option.bind_eq_bind, Option.bind_some, String.toList_ofList, next, Place.read]
    cases hrest : place.skipBlanks.rest with
    | nil => rfl
    | cons c cs =>
      simp only [List.head?_cons, h.skipBlanks.lexeme?_onBytes hrest]
      cases Place.lexeme place.skipBlanks.offset c cs <;> rfl

/-- A call that answers with a token, other than the end of the input, has read it. -/
theorem read_of_next {token : Token} (hnext : scanner.next.1 = some (.ok token))
    (hne : token ≠ .endOfInput) :
  scanner.place.read = .ok (some (token, scanner.next.2.place))
  := by
  rw [next] at hnext ⊢
  split at hnext
  · cases hnext
  · rename_i hfinished
    rw [if_neg hfinished]
    split at hnext
    · cases hnext
    · cases hnext
      cases hne rfl
    · rename_i hread
      cases hnext
      rw [hread]

/-- A call that answers with a token passes its lexeme, which has some bytes. -/
theorem exists_lexeme_of_next (h : scanner.place.IsIn text) {token : Token}
    (hnext : scanner.next.1 = some (.ok token)) (hne : token ≠ .endOfInput) :
  ∃ (start : Nat) (l : List Char), scanner.place.offset ≤ start ∧
    start < scanner.next.2.place.offset ∧ Lexeme l token ∧
    Text.slice? text start scanner.next.2.place.offset = some (String.ofList l)
  := by
  have hread := read_of_next hnext hne
  rcases scanner.place.read_cases with ⟨hnone, -⟩ |
    ⟨ws, l, rest, token', heq, -, hl, -, hsome⟩ | ⟨-, -, error, -, -, herror, -⟩
  · cases hnone.symm.trans hread
  · have hplace := hsome.symm.trans hread
    simp only [Except.ok.injEq, Option.some.injEq, Prod.mk.injEq] at hplace
    obtain ⟨rfl, hplace⟩ := hplace
    rw [List.append_assoc] at heq
    have hslice := (h.advance heq).slice? rfl
    rw [← hplace, byteLength_append, ← Nat.add_assoc]
    refine ⟨_, l, Nat.le_add_right _ _, ?_, hl, hslice⟩
    obtain ⟨c, cs, rfl⟩ := hl.exists_cons
    apply Nat.lt_add_of_pos_right
    apply Nat.add_pos_left c.utf8Size_pos
  · cases herror.symm.trans hread

/-! ### All calls -/

/-- The calls after the first one. -/
theorem after_succ (scanner : Scanner) (count : Nat) :
  scanner.after (count + 1) = scanner.next.2.after count
  := by
  induction count with
  | zero => rfl
  | succ count ih => exact congrArg (fun s => s.next.2) ih

/-- A scanner that has finished does not change any more. -/
theorem after_of_finished {place : Place} (count : Nat) :
  (Scanner.mk place true).after count = ⟨place, true⟩
  := by
  induction count with
  | zero => rfl
  | succ count ih =>
    rw [after, ih]
    rfl

/-- After a call that finishes there are no answers. -/
theorem next_after_of_finished {place : Place} {last : Except Error Token}
    (hnext : scanner.next = (some last, ⟨place, true⟩)) (count : Nat) :
  (scanner.after count).next.1 = [last][count]?
  := by
  cases count with
  | zero => rw [after, hnext]; rfl
  | succ count =>
    rw [after_succ, hnext, after_of_finished]
    rfl

end Scanner

/-- What is answered from a place on: the tokens, one for each call, then the end of the input or an
error, and nothing after that. -/
theorem Place.exists_answers (place : Place) :
  ∃ (ts : List Token) (last : Except Error Token), ts.length ≤ place.rest.length ∧
    Token.endOfInput ∉ ts ∧ (last = .ok .endOfInput ∨ ∃ error : Error, last = .error error) ∧
    place.tokens = last.map (fun token => ts ++ [token]) ∧
    ∀ count : Nat, ((Scanner.mk place false).after count).next.1 = (ts.map .ok ++ [last])[count]?
  := by
  induction hn : place.rest.length using Nat.strongRecOn generalizing place with
  | ind n ih =>
    cases hread : place.read with
    | error error =>
      use [], .error error, Nat.zero_le _, List.not_mem_nil, Or.inr ⟨error, rfl⟩
      use tokens_of_read_error hread
      apply Scanner.next_after_of_finished
      rw [Scanner.next, if_neg Bool.false_ne_true, hread]
    | ok answer =>
      cases answer with
      | none =>
        use [], .ok .endOfInput, Nat.zero_le _, List.not_mem_nil, Or.inl rfl
        use tokens_of_read_none hread
        apply Scanner.next_after_of_finished
        rw [Scanner.next, if_neg Bool.false_ne_true, hread]
      | some pair =>
        obtain ⟨token, next⟩ := pair
        have hlt := length_read_lt hread
        obtain ⟨ts, last, hlength, hmem, hlast, htokens, hanswers⟩ := ih _ (hn ▸ hlt) next rfl
        have hnext : (Scanner.mk place false).next = (some (.ok token), ⟨next, false⟩) := by
          rw [Scanner.next, if_neg Bool.false_ne_true, hread]
        use token :: ts, last
        refine ⟨?_, ?_, hlast, ?_, ?_⟩
        · rw [List.length_cons]
          omega
        · rw [List.mem_cons, not_or]
          obtain ⟨offset, c, cs, hlexeme⟩ := exists_lexeme hread
          refine ⟨?_, hmem⟩
          rintro rfl
          apply lexeme_ne_endOfInput hlexeme
        · rw [tokens_of_read_some hread, htokens]
          cases last <;> rfl
        · rintro (_ | count)
          · rw [Scanner.after, hnext]
            rfl
          · rw [Scanner.after_succ, hnext]
            apply hanswers

/-- What holds of a scanner of a text before each call. -/
structure Scanner.StaysIn (scanner : Scanner) (text : String) : Prop where
  le_utf8ByteSize : scanner.place.offset ≤ text.utf8ByteSize
  /-- The scanner stands between two characters. -/
  isValid : String.Pos.Raw.IsValid text ⟨scanner.place.offset⟩
  /-- The call has the same answer by bytes, where all cuts are in range and between characters. -/
  next?_onBytes : (scanner.onBytes text).next? = some (scanner.next.1, scanner.next.2.onBytes text)
  /-- A token is that of the bytes up to where the scanner stands after the call. -/
  advances : ∀ token : Token, scanner.next.1 = some (.ok token) → token ≠ .endOfInput →
    ∃ (start : Nat) (l : List Char), scanner.place.offset ≤ start ∧
      start < scanner.next.2.place.offset ∧ Lexeme l token ∧
      Text.slice? text start scanner.next.2.place.offset = some (String.ofList l)

/-- What holds of a scanner at a place in its text. -/
theorem Place.IsIn.staysIn {scanner : Scanner} {text : String} (h : scanner.place.IsIn text) :
  scanner.StaysIn text
  := by
  constructor
  · apply h.isValid.le_utf8ByteSize
  · apply h.isValid
  · apply Scanner.next?_onBytes h
  · intro token hnext hne
    apply Scanner.exists_lexeme_of_next h hnext hne

/-- A scanner never leaves its text, and moves forward until the text is used up.

Before each call it stands between two characters of the text, and all cuts that the call makes out
of the bytes of the text are in range and between characters.  Where the call answers with a token,
the scanner passes the lexeme of this token, which is not empty.

The answers are at most as many tokens as the text has characters, then once the end of the input or
an error, and nothing from there on.  Together they are what the text is tokenized as. -/
theorem Scanner.stays_in_text_and_ends (text : String) :
  (∀ count : Nat, ((Scanner.ofText text).after count).StaysIn text) ∧
  ∃ (ts : List Token) (last : Except Error Token), ts.length ≤ text.length ∧
    Token.endOfInput ∉ ts ∧ (last = .ok .endOfInput ∨ ∃ error : Error, last = .error error) ∧
    tokenize text = last.map (fun token => ts ++ [token]) ∧
    ∀ count : Nat, ((Scanner.ofText text).after count).next.1 = (ts.map .ok ++ [last])[count]?
  := by
  constructor
  · intro count
    apply (isIn_after (Place.IsIn.ofText text) count).staysIn
  · obtain ⟨ts, last, hlength, hmem, hlast, htokens, hanswers⟩ :=
      (Place.ofText text).exists_answers
    use ts, last
    rw [← String.length_toList]
    exact ⟨hlength, hmem, hlast, htokens, hanswers⟩

/-- A number without digits is read before it is refused, and an identifier takes all bytes of its
letters. -/
example : ((Scanner.ofText "aé .").after 1).place.offset = 3 ∧
    ((Scanner.ofText "aé .").after 2).place.offset = 5 := by
  decide +kernel

end Calculator
