import Calculator.Proofs.Text.Ascii
import Calculator.Token.Lexer
import Mathlib.Tactic.Use

/-!
# Texts that spell tokens

`Spells cs ts` says that the characters `cs` are read as the tokens `ts`, wherever in a text
they stand.  Such a text is built from the end: a blank changes nothing
(`Spells.blank`), and a parenthesis, an operator, a number or an identifier puts its token
in front (`Spells.single`, `Spells.number`, `Spells.identifier`), the last two if the text
after them does not go on with the lexeme.

`Place.tokens_eq_concat` says that what is read from any text ends with the end of the
input and has no other, and `Place.tokens_map` that places which differ in the same way at
every step have tokens that differ in this way.
-/

namespace Calculator

namespace Place

/-! ### All tokens by the first one -/

/-- An error at the first token is the error of the text. -/
theorem tokens_of_read_error {place : Place} {error : Error} (h : place.read = .error error) :
  place.tokens = .error error
  := by
  rw [tokens]
  split <;> simp_all

/-- Where only blanks are left, the end of the input is the only token. -/
theorem tokens_of_read_none {place : Place} (h : place.read = .ok none) :
  place.tokens = .ok [.endOfInput]
  := by
  rw [tokens]
  split <;> simp_all

/-- The first token stands before the tokens of the place after it. -/
theorem tokens_of_read_some {place next : Place} {token : Token}
    (h : place.read = .ok (some (token, next))) :
  place.tokens = next.tokens.map (token :: ·)
  := by
  rw [tokens]
  split <;> simp_all

/-- The tokens of a place depend only on what is read there. -/
theorem tokens_congr {place place' : Place} (h : place.read = place'.read) :
  place.tokens = place'.tokens
  := by
  cases hread : place'.read with
  | error error => rw [tokens_of_read_error hread, tokens_of_read_error (h.trans hread)]
  | ok answer =>
    cases answer with
    | none => rw [tokens_of_read_none hread, tokens_of_read_none (h.trans hread)]
    | some pair => rw [tokens_of_read_some hread, tokens_of_read_some (h.trans hread)]

/-- A change of places that changes every step in the same way changes all tokens, or the error,
in this way. -/
theorem tokens_map (move : Place → Place) (rename : Token → Token) (report : Error → Error)
    (hend : rename .endOfInput = .endOfInput)
    (h : ∀ place : Place, (move place).read
      = (place.read.map (Option.map fun (token, next) => (rename token, move next))).mapError report)
    (place : Place) :
  (move place).tokens = (place.tokens.map (List.map rename)).mapError report
  := by
  induction hn : place.rest.length using Nat.strongRecOn generalizing place with
  | ind n ih =>
    have hmove := h place
    cases hread : place.read with
    | error error =>
      rw [hread] at hmove
      rw [tokens_of_read_error hmove, tokens_of_read_error hread]
      rfl
    | ok answer =>
      rw [hread] at hmove
      cases answer with
      | none =>
        rw [tokens_of_read_none hmove, tokens_of_read_none hread]
        apply congrArg (fun token => Except.ok [token]) hend.symm
      | some pair =>
        obtain ⟨token, next⟩ := pair
        rw [tokens_of_read_some hmove, tokens_of_read_some hread,
          ih _ (hn ▸ length_read_lt hread) next rfl]
        cases next.tokens <;> rfl

/-- No lexeme is the end of the input. -/
theorem lexeme_ne_endOfInput {offset : Nat} {c : Char} {cs : List Char} {next : Place} :
  lexeme offset c cs ≠ .ok (.endOfInput, next)
  := by
  intro h
  unfold lexeme singleToken? at h
  grind

/-- What is read as a token is a lexeme. -/
theorem exists_lexeme {place next : Place} {token : Token}
    (h : place.read = .ok (some (token, next))) :
  ∃ (offset : Nat) (c : Char) (cs : List Char), lexeme offset c cs = .ok (token, next)
  := by
  simp only [read] at h
  split at h
  · cases h
  · rename_i c cs _
    use place.skipBlanks.offset, c, cs
    cases hl : lexeme place.skipBlanks.offset c cs with
    | error error => simp [hl, Except.map] at h
    | ok pair => simpa [hl, Except.map] using h

/-- The tokens of a text end with the end of the input, which stands nowhere else. -/
theorem tokens_eq_concat {place : Place} {tokens : List Token} (h : place.tokens = .ok tokens) :
  ∃ ts : List Token, tokens = ts ++ [.endOfInput] ∧ Token.endOfInput ∉ ts
  := by
  induction hn : place.rest.length using Nat.strongRecOn generalizing place tokens with
  | ind n ih =>
    cases hread : place.read with
    | error error => simp [tokens_of_read_error hread] at h
    | ok answer =>
      cases answer with
      | none =>
        rw [tokens_of_read_none hread] at h
        cases h
        use []
        simp
      | some pair =>
        obtain ⟨token, next⟩ := pair
        rw [tokens_of_read_some hread] at h
        cases hnext : next.tokens with
        | error error => simp [hnext, Except.map] at h
        | ok rest =>
          obtain ⟨ts, rfl, hend⟩ := ih _ (hn ▸ length_read_lt hread) hnext rfl
          simp only [hnext, Except.map, Except.ok.injEq] at h
          subst h
          obtain ⟨offset, c, cs, hlexeme⟩ := exists_lexeme hread
          use token :: ts, rfl
          intro hmem
          rcases List.mem_cons.mp hmem with rfl | hmem
          · apply lexeme_ne_endOfInput hlexeme
          · apply hend hmem

end Place

/-! ### Spelling -/

/-- The tokens that characters are read as, wherever they stand. -/
def Spells (cs : List Char) (ts : List Token) : Prop :=
  ∀ offset : Nat, (Place.mk offset cs).tokens = .ok ts

namespace Spells

/-- A text without characters spells the end of the input. -/
theorem nil :
  Spells [] [.endOfInput]
  := by
  intro offset
  apply Place.tokens_of_read_none rfl

/-- A blank in front of a text changes nothing. -/
theorem blank {c : Char} {cs : List Char} {ts : List Token} (hc : Text.isBlank c = true)
    (h : Spells cs ts) :
  Spells (c :: cs) ts
  := by
  intro offset
  rw [← h (offset + byteLength [c])]
  apply Place.tokens_congr
  simp only [Place.read, Place.skipBlanks, List.dropWhile_cons, List.takeWhile_cons, hc, if_true]
  simp [byteLength, Nat.add_assoc]

/-- A lexeme in front of a text puts its token in front. -/
theorem lexeme {c : Char} {cs rest : List Char} {token : Token} {ts : List Token}
    (hc : Text.isBlank c = false)
    (hlexeme : ∀ offset : Nat, ∃ next : Nat,
      Place.lexeme offset c cs = .ok (token, ⟨next, rest⟩))
    (h : Spells rest ts) :
  Spells (c :: cs) (token :: ts)
  := by
  intro offset
  obtain ⟨next, hnext⟩ := hlexeme offset
  have hread : (Place.mk offset (c :: cs)).read = .ok (some (token, ⟨next, rest⟩)) := by
    simp only [Place.read, Place.skipBlanks, List.dropWhile_cons, List.takeWhile_cons, hc]
    simp [byteLength, hnext, Except.map]
  rw [Place.tokens_of_read_some hread, h next]
  rfl

/-- A parenthesis or an operator is a token of its own. -/
theorem single {c : Char} {cs : List Char} {token : Token} {ts : List Token}
    (hc : Text.isBlank c = false) (htoken : singleToken? c = some token) (h : Spells cs ts) :
  Spells (c :: cs) (token :: ts)
  := by
  apply lexeme hc _ h
  intro offset
  use offset + byteLength [c]
  rw [Place.lexeme, htoken]

/-- A character that begins an identifier is ASCII. -/
theorem toNat_lt_of_startsIdentifier {c : Char} (hc : startsIdentifier c = true) :
  c.toNat < 128
  := by
  rcases Bool.or_eq_true _ _ ▸ hc with halpha | hunderscore
  · apply Text.toNat_lt_of_isAlpha halpha
  · rw [eq_of_beq hunderscore]
    decide

/-- A letter or underscore is no blank and no token of its own, and begins no number. -/
theorem not_blank_of_startsIdentifier {c : Char} (hc : startsIdentifier c = true) :
  Text.isBlank c = false ∧ singleToken? c = none ∧ (c.isDigit || c == '.') = false
  := by
  have hascii := toNat_lt_of_startsIdentifier hc
  revert hc
  apply Text.forall_ascii _ hascii
  decide

/-- A digit is no blank and no token of its own. -/
theorem not_blank_of_isDigit {c : Char} (hc : c.isDigit = true) :
  Text.isBlank c = false ∧ singleToken? c = none
  := by
  have hascii := Text.toNat_lt_of_isDigit hc
  revert hc
  apply Text.forall_ascii _ hascii
  decide

/-- An identifier that reaches as far as it can puts its token in front. -/
theorem identifier {c : Char} {cs rest : List Char} {ts : List Token}
    (hstart : startsIdentifier c = true) (hname : ∀ d ∈ cs, continuesIdentifier d = true)
    (hrest : ∀ d ∈ rest.head?, continuesIdentifier d = false) (h : Spells rest ts) :
  Spells (c :: (cs ++ rest)) (.identifier (String.ofList (c :: cs)) :: ts)
  := by
  obtain ⟨hblank, hsingle, hnumber⟩ := not_blank_of_startsIdentifier hstart
  have htake : (cs ++ rest).takeWhile continuesIdentifier = cs := by
    rw [List.takeWhile_append_of_pos hname]
    cases rest with
    | nil => simp
    | cons d rest => simp [hrest d rfl]
  have hdrop : (cs ++ rest).dropWhile continuesIdentifier = rest := by
    rw [List.dropWhile_append_of_pos hname]
    cases rest with
    | nil => rfl
    | cons d rest => simp [hrest d rfl]
  apply lexeme hblank _ h
  intro offset
  use offset + byteLength (c :: cs)
  simp [Place.lexeme, hsingle, hnumber, hstart, htake, hdrop]

/-- A number that reaches as far as it can puts its token in front. -/
theorem number {c : Char} {cs rest : List Char} {value : Float} {ts : List Token}
    (hdigit : c.isDigit = true) (hrun : numberRun false (c :: (cs ++ rest)) = (c :: cs, rest))
    (hvalue : numberValue? (c :: cs) = some value) (h : Spells rest ts) :
  Spells (c :: (cs ++ rest)) (.number value :: ts)
  := by
  obtain ⟨hblank, hsingle⟩ := not_blank_of_isDigit hdigit
  apply lexeme hblank _ h
  intro offset
  use offset + byteLength (c :: cs)
  simp only [Place.lexeme, hsingle, hdigit, Bool.true_or, if_true, hrun, hvalue]

end Spells

end Calculator
