import Calculator.Proofs.Token.LexicalGrammar
import Calculator.Text.Case

/-!
# Texts in lower case

A text and the same text in lower case have the same lexemes at the same offsets, and the
tokens are the same but for the case of identifiers.

* `class_toLower`: the case of a letter matters to none of the tests of the scanner.
* `Place.lexeme_lowercase`, `Place.read_lowercase`: nor to what is read in one step.
* `tokenize_lowercase`: so a text in lower case has the tokens of the text in lower case, or
  the same error.
-/

namespace Calculator

/-! ### Characters -/

/-- What the scanner asks of a character does not depend on its case. -/
theorem class_toLower (c : Char) :
  Text.isBlank c.toLower = Text.isBlank c ∧ singleToken? c.toLower = singleToken? c ∧
    c.toLower.isDigit = c.isDigit ∧ (c.toLower == '.') = (c == '.') ∧
    startsIdentifier c.toLower = startsIdentifier c ∧
    continuesIdentifier c.toLower = continuesIdentifier c ∧ c.toLower.utf8Size = c.utf8Size
  := by
  apply Text.forall_toLower (P := fun c d => Text.isBlank d = Text.isBlank c ∧
    singleToken? d = singleToken? c ∧ d.isDigit = c.isDigit ∧ (d == '.') = (c == '.') ∧
    startsIdentifier d = startsIdentifier c ∧ continuesIdentifier d = continuesIdentifier c ∧
    d.utf8Size = c.utf8Size)
  · intro c
    exact ⟨rfl, rfl, rfl, rfl, rfl, rfl, rfl⟩
  · decide +kernel

/-- A character that begins no identifier is its own lower case. -/
theorem toLower_of_not_startsIdentifier {c : Char} (hc : startsIdentifier c = false) :
  c.toLower = c
  := by
  revert hc
  apply Text.forall_toLower (P := fun c d => startsIdentifier c = false → d = c)
  · intro c _
    rfl
  · decide

/-- Characters in lower case take as many bytes. -/
theorem byteLength_map_toLower (cs : List Char) :
  byteLength (cs.map Char.toLower) = byteLength cs
  := by
  induction cs with
  | nil => rfl
  | cons c cs ih =>
    obtain ⟨-, -, -, -, -, -, hsize⟩ := class_toLower c
    rw [List.map_cons, byteLength, List.foldr_cons, ← byteLength, ih, hsize]
    rfl

/-- The run of a number has no letters, so that only the rest is put into lower case. -/
theorem numberRun_map_toLower (pointSeen : Bool) (cs : List Char) :
  numberRun pointSeen (cs.map Char.toLower)
    = ((numberRun pointSeen cs).1, (numberRun pointSeen cs).2.map Char.toLower)
  := by
  induction cs generalizing pointSeen with
  | nil => rfl
  | cons c cs ih =>
    obtain ⟨-, -, hdigit, hpoint, -⟩ := class_toLower c
    rw [List.map_cons, numberRun, numberRun, hdigit, hpoint, ih, ih]
    cases hc : (c.isDigit || c == '.') with
    | true =>
      rw [toLower_of_not_startsIdentifier (class_of_number hc).2.2]
      split
      · rfl
      · split
        · rfl
        · simp [toLower_of_not_startsIdentifier (class_of_number hc).2.2]
    | false =>
      obtain ⟨hdigit, hpoint⟩ := Bool.or_eq_false_iff.mp hc
      simp [hdigit, hpoint]

/-! ### Tokens -/

/-- A token with its name in lower case, if it is an identifier. -/
def Token.lowercase : Token → Token
  | .identifier name => .identifier (Text.lowercase name)
  | token => token

namespace Place

/-- A place in the text in lower case. -/
def lowercase (place : Place) : Place :=
  ⟨place.offset, place.rest.map Char.toLower⟩

/-- A character that is a token by itself is no identifier. -/
theorem lowercase_singleToken? {c : Char} {token : Token} (h : singleToken? c = some token) :
  token.lowercase = token
  := by
  unfold singleToken? at h
  grind [Token.lowercase]

/-- The longest identifier in lower case. -/
theorem takeWhile_continuesIdentifier_map_toLower (cs : List Char) :
  (cs.map Char.toLower).takeWhile continuesIdentifier
    = (cs.takeWhile continuesIdentifier).map Char.toLower ∧
  (cs.map Char.toLower).dropWhile continuesIdentifier
    = (cs.dropWhile continuesIdentifier).map Char.toLower
  := by
  have hclass : continuesIdentifier ∘ Char.toLower = continuesIdentifier := by
    funext c
    apply (class_toLower c).2.2.2.2.2.1
  rw [List.takeWhile_map, List.dropWhile_map, hclass]
  use rfl

/-- What is read where a lexeme begins is the same in lower case. -/
theorem lexeme_lowercase (offset : Nat) (c : Char) (cs : List Char) :
  lexeme offset c.toLower (cs.map Char.toLower)
    = (lexeme offset c cs).map fun (token, place) => (token.lowercase, place.lowercase)
  := by
  obtain ⟨-, hsingle, hdigit, hpoint, hstart, -, -⟩ := class_toLower c
  rw [lexeme, lexeme, hsingle, hdigit, hpoint, hstart]
  cases hc : singleToken? c with
  | some token =>
    have hlower := toLower_of_not_startsIdentifier (class_of_singleToken? hc).2.2
    simp only [Except.map, lowercase_singleToken? hc, hlower]
    rfl
  | none =>
    cases hnumber : (c.isDigit || c == '.') with
    | true =>
      rw [← List.map_cons, numberRun_map_toLower]
      simp only [if_true]
      cases numberValue? (numberRun false (c :: cs)).1 <;> rfl
    | false =>
      cases hname : startsIdentifier c with
      | true =>
        obtain ⟨htake, hdrop⟩ := takeWhile_continuesIdentifier_map_toLower cs
        have hbytes := byteLength_map_toLower (c :: cs.takeWhile continuesIdentifier)
        rw [List.map_cons] at hbytes
        simp only [Bool.false_eq_true, if_false, if_true, htake, hdrop, hbytes, Except.map,
          Token.lowercase, Text.lowercase, String.toList_ofList, List.map_cons]
        rfl
      | false =>
        rw [toLower_of_not_startsIdentifier hname]
        rfl

/-- One step in lower case. -/
theorem read_lowercase (place : Place) :
  place.lowercase.read
    = place.read.map (Option.map fun (token, next) => (token.lowercase, next.lowercase))
  := by
  have hclass : Text.isBlank ∘ Char.toLower = Text.isBlank := by
    funext c
    apply (class_toLower c).1
  have hskip : place.lowercase.skipBlanks = place.skipBlanks.lowercase := by
    simp only [skipBlanks, lowercase, List.takeWhile_map, List.dropWhile_map, hclass,
      byteLength_map_toLower]
  rw [read, read, hskip]
  simp only [lowercase]
  cases place.skipBlanks.rest with
  | nil => rfl
  | cons c cs =>
    rw [List.map_cons]
    simp only [lexeme_lowercase]
    cases lexeme place.skipBlanks.offset c cs <;> rfl

/-- All steps in lower case. -/
theorem tokens_lowercase (place : Place) :
  place.lowercase.tokens = place.tokens.map (List.map Token.lowercase)
  := by
  rw [tokens_map lowercase Token.lowercase id rfl]
  · cases place.tokens <;> rfl
  · intro place
    rw [read_lowercase]
    cases place.read <;> rfl

end Place

/-- A text in lower case has the tokens of the text in lower case, or the same error. -/
theorem tokenize_lowercase (text : String) :
  tokenize (Text.lowercase text) = (tokenize text).map (List.map Token.lowercase)
  := by
  rw [tokenize, tokenize, ← Place.tokens_lowercase]
  simp only [Place.ofText, Place.lowercase, Text.lowercase, String.toList_ofList]

end Calculator
