import Calculator.Proofs.Token.LexicalGrammar

/-!
# Texts with blanks

Blanks separate lexemes and do nothing else.  A text that is followed by a blank is read up to
there as if it ended there, and blanks in front of a text only move the offsets of its lexical
errors.

* `Place.tokens_extend`: the tokens of a text that is followed by a blank.
* `Place.tokens_moved`: the same text at another offset.
* `tokenize_append`: so the tokens of a text and of one that begins with a blank are read one after
  the other.
* `tokenize_padded` and `tokenize_eq_trim`: a text is read as it is without the blanks around it,
  but for the offset of a lexical error.
-/

namespace Calculator

/-! ### Blanks -/

/-- The code points of the blanks. -/
def Text.blankCodes : List Nat :=
  [0x9, 0xA, 0xB, 0xC, 0xD, 0x20, 0x85, 0xA0, 0x1680, 0x2000, 0x2001, 0x2002, 0x2003, 0x2004,
    0x2005, 0x2006, 0x2007, 0x2008, 0x2009, 0x200A, 0x2028, 0x2029, 0x202F, 0x205F, 0x3000]

/-- The code point of a blank is one of them. -/
theorem Text.toNat_mem_blankCodes {c : Char} (hc : isBlank c = true) :
  c.toNat ∈ blankCodes
  := by
  simp only [isBlank, Bool.or_eq_true, Bool.and_eq_true, decide_eq_true_eq, beq_iff_eq] at hc
  simp only [blankCodes, List.mem_cons, List.not_mem_nil, or_false]
  omega

/-- No blank is alphanumeric. -/
theorem Text.isAlphanumeric_of_isBlank {c : Char} (hc : isBlank c = true) :
  isAlphanumeric c = false
  := by
  -- `Nat.blt` is what the kernel computes at once.
  have hall : (alphanumericRanges.all fun range => blankCodes.all fun n =>
      n.blt range.1 || range.2.blt n) = true := by decide +kernel
  rw [isAlphanumeric, List.any_eq_false]
  intro range hrange
  have hcode := List.all_eq_true.mp (List.all_eq_true.mp hall _ hrange) _ (toNat_mem_blankCodes hc)
  simp only [Bool.or_eq_true, Nat.blt_eq] at hcode
  simp only [Bool.and_eq_true, decide_eq_true_eq]
  omega

/-- A blank stands in no number and in no identifier. -/
theorem class_of_isBlank {c : Char} (hc : Text.isBlank c = true) :
  c.isDigit = false ∧ (c == '.') = false ∧ continuesIdentifier c = false
  := by
  have hothers : ∀ n ∈ Text.blankCodes, (Char.ofNat n).isDigit = false ∧
      (Char.ofNat n == '.') = false ∧ (Char.ofNat n == '_') = false := by decide
  obtain ⟨hdigit, hpoint, hunderscore⟩ := hothers c.toNat (Text.toNat_mem_blankCodes hc)
  rw [Char.ofNat_toNat] at hdigit hpoint hunderscore
  use hdigit, hpoint
  rw [continuesIdentifier, Text.isAlphanumeric_of_isBlank hc, hunderscore]
  rfl

/-- Whether a text is empty or begins with a blank. -/
def BeginsBlank (cs : List Char) : Prop :=
  ∀ c ∈ cs.head?, Text.isBlank c = true

/-- A run of a number ends before a blank. -/
theorem numberRun_append_blank {ds : List Char} (hds : BeginsBlank ds) (pointSeen : Bool)
    (cs : List Char) :
  numberRun pointSeen (cs ++ ds)
    = ((numberRun pointSeen cs).1, (numberRun pointSeen cs).2 ++ ds)
  := by
  induction cs generalizing pointSeen with
  | nil =>
    cases ds with
    | nil => rfl
    | cons d ds =>
      obtain ⟨hdigit, hpoint, -⟩ := class_of_isBlank (hds d rfl)
      simp [numberRun, hdigit, hpoint]
  | cons c cs ih =>
    rw [List.cons_append, numberRun, numberRun, ih, ih]
    split
    · rfl
    · split <;> rfl

/-- An identifier ends before a blank. -/
theorem takeWhile_continuesIdentifier_append {ds : List Char} (hds : BeginsBlank ds)
    (cs : List Char) :
  (cs ++ ds).takeWhile continuesIdentifier = cs.takeWhile continuesIdentifier ∧
    (cs ++ ds).dropWhile continuesIdentifier = cs.dropWhile continuesIdentifier ++ ds
  := by
  induction cs with
  | nil =>
    cases ds with
    | nil => simp
    | cons d ds =>
      obtain ⟨-, -, hname⟩ := class_of_isBlank (hds d rfl)
      simp [hname]
  | cons c cs ih =>
    cases hc : continuesIdentifier c with
    | true => simp [hc, ih]
    | false => simp [hc]

namespace Place

/-! ### A text before a blank -/

/-- A place in a text that goes on after its end. -/
def extend (place : Place) (ds : List Char) : Place :=
  ⟨place.offset, place.rest ++ ds⟩

/-- A lexeme is the same before a blank as at the end of a text. -/
theorem lexeme_append {ds : List Char} (hds : BeginsBlank ds) (offset : Nat) (c : Char)
    (cs : List Char) :
  lexeme offset c (cs ++ ds)
    = (lexeme offset c cs).map fun (token, next) => (token, next.extend ds)
  := by
  have hrun := numberRun_append_blank hds false (c :: cs)
  obtain ⟨htake, hdrop⟩ := takeWhile_continuesIdentifier_append hds cs
  rw [List.cons_append] at hrun
  simp only [lexeme, hrun, htake, hdrop]
  cases singleToken? c with
  | some token => rfl
  | none =>
    cases c.isDigit || c == '.' with
    | true => cases numberValue? (numberRun false (c :: cs)).1 <;> rfl
    | false => cases startsIdentifier c <;> rfl

/-- Blanks are skipped. -/
theorem read_blanks {ws : List Char} (hws : AreBlanks ws) (offset : Nat) (cs : List Char) :
  (mk offset (ws ++ cs)).read = (mk (offset + byteLength ws) cs).read
  := by
  have hskip : (mk offset (ws ++ cs)).skipBlanks = (mk (offset + byteLength ws) cs).skipBlanks := by
    simp only [skipBlanks, List.takeWhile_append_of_pos hws, List.dropWhile_append_of_pos hws,
      byteLength_append, Nat.add_assoc]
  rw [read, read, hskip]

/-- Where a lexeme or a fault is found in a text, a blank after the text changes nothing. -/
theorem read_extend {ds : List Char} (hds : BeginsBlank ds) (place : Place)
    (h : place.read ≠ .ok none) :
  (place.extend ds).read
    = place.read.map (Option.map fun (token, next) => (token, next.extend ds))
  := by
  have heq : place.rest.takeWhile Text.isBlank ++ place.rest.dropWhile Text.isBlank = place.rest :=
    List.takeWhile_append_dropWhile
  have hws : AreBlanks (place.rest.takeWhile Text.isBlank) :=
    fun c hc => List.mem_takeWhile_imp hc
  cases hrest : place.rest.dropWhile Text.isBlank with
  | nil =>
    cases h (by simp [read, skipBlanks, hrest])
  | cons c cs =>
    have hblank : Text.isBlank c = false := by
      have hhead := List.head?_dropWhile_not Text.isBlank place.rest
      rw [hrest] at hhead
      apply hhead
    have hextend : (place.extend ds).read
        = (mk (place.offset + byteLength (place.rest.takeWhile Text.isBlank))
            (c :: (cs ++ ds))).read := by
      rw [← read_blanks hws, ← List.cons_append, ← hrest, ← List.append_assoc, heq]
      rfl
    rw [hextend]
    simp only [read, skipBlanks, hrest, List.takeWhile_cons, List.dropWhile_cons, hblank,
      Bool.false_eq_true, if_false]
    rw [lexeme_append hds]
    simp only [byteLength, List.foldr_nil, Nat.add_zero]
    cases lexeme _ c cs <;> rfl

/-- A text that is followed by a blank has the tokens of the text and then those of the rest. -/
theorem tokens_extend {ds : List Char} (hds : BeginsBlank ds) (place : Place) :
  (place.extend ds).tokens = place.tokens.bind fun ts =>
    (mk (place.offset + byteLength place.rest) ds).tokens.map (ts.dropLast ++ ·)
  := by
  induction hn : place.rest.length using Nat.strongRecOn generalizing place with
  | ind n ih =>
    rcases place.read_cases with ⟨hread, hblanks⟩ |
      ⟨ws, l, rest, token, heq, -, -, -, hread⟩ | ⟨-, -, error, -, -, hread, -⟩
    · have hrest : (place.extend ds).tokens
          = (mk (place.offset + byteLength place.rest) ds).tokens :=
        tokens_congr (read_blanks hblanks place.offset ds)
      rw [tokens_of_read_none hread, hrest]
      cases (mk (place.offset + byteLength place.rest) ds).tokens <;> rfl
    · have hextend := read_extend hds place (by simp [hread])
      rw [hread] at hextend
      have hoffset : place.offset + byteLength place.rest
          = place.offset + byteLength (ws ++ l) + byteLength rest := by
        rw [heq, byteLength_append (ws ++ l), Nat.add_assoc]
      rw [tokens_of_read_some hextend, tokens_of_read_some hread, hoffset,
        ih _ (hn ▸ length_read_lt hread) _ rfl]
      cases hnext : (mk (place.offset + byteLength (ws ++ l)) rest).tokens with
      | error error => rfl
      | ok ts =>
        obtain ⟨us, rfl, -⟩ := tokens_eq_concat hnext
        have hlast : (token :: (us ++ [Token.endOfInput])).dropLast = token :: us := by
          rw [← List.cons_append, List.dropLast_concat]
        simp only [Except.bind, Except.map, hlast, List.dropLast_concat]
        cases (mk (place.offset + byteLength (ws ++ l) + byteLength rest) ds).tokens <;> rfl
    · have hextend := read_extend hds place (by simp [hread])
      rw [hread] at hextend
      rw [tokens_of_read_error hextend, tokens_of_read_error hread]
      rfl

end Place

/-! ### The same text at another offset -/

/-- An error for a text that has some more bytes in front: a lexical error stands so many bytes
further. -/
def Error.moved (bytes : Nat) : Error → Error
  | .unexpectedCharacter character offset => .unexpectedCharacter character (bytes + offset)
  | .invalidNumber literal offset => .invalidNumber literal (bytes + offset)
  | error => error

namespace Place

/-- A place in a text that has some more bytes in front. -/
def moved (bytes : Nat) (place : Place) : Place :=
  ⟨bytes + place.offset, place.rest⟩

/-- One step in a text that has more bytes in front. -/
theorem read_moved (bytes : Nat) (place : Place) :
  (place.moved bytes).read
    = (place.read.map (Option.map fun (token, next) => (token, next.moved bytes))).mapError
        (Error.moved bytes)
  := by
  have hskip : (place.moved bytes).skipBlanks = place.skipBlanks.moved bytes := by
    simp only [skipBlanks, moved, Nat.add_assoc]
  rw [read, read, hskip]
  simp only [moved]
  cases place.skipBlanks.rest with
  | nil => rfl
  | cons c cs =>
    simp only [lexeme]
    cases singleToken? c with
    | some token => simp only [Except.map, Except.mapError, Option.map, Nat.add_assoc]
    | none =>
      cases c.isDigit || c == '.' with
      | true =>
        cases numberValue? (numberRun false (c :: cs)).1 <;>
          simp only [Except.map, Except.mapError, Option.map, Nat.add_assoc, Error.moved, if_true]
      | false =>
        cases startsIdentifier c <;>
          simp only [Except.map, Except.mapError, Option.map, Nat.add_assoc, Error.moved, if_true,
            if_false, Bool.false_eq_true]

/-- A text that has more bytes in front has the same tokens, or the same error further on. -/
theorem tokens_moved (bytes : Nat) (place : Place) :
  (place.moved bytes).tokens = place.tokens.mapError (Error.moved bytes)
  := by
  rw [tokens_map (moved bytes) id (Error.moved bytes) rfl (read_moved bytes)]
  cases place.tokens with
  | error error => rfl
  | ok ts => rw [Except.map, List.map_id]

end Place

/-- Only a lexical error has an offset. -/
theorem Error.moved_of_kind {error : Error} (h : error.kind ≠ .lexical) (bytes : Nat) :
  error.moved bytes = error
  := by
  cases error <;> first | rfl | cases h rfl

/-! ### Texts one after the other -/

/-- The bytes of the characters of a text. -/
theorem byteLength_toList (text : String) :
  byteLength text.toList = text.utf8ByteSize
  := by
  rw [← utf8ByteSize_ofList, String.ofList_toList]

/-- What stands behind a text, if it does not go on with its last lexeme, is read on its own. -/
theorem tokenize_append {s t : String} (ht : BeginsBlank t.toList) :
  tokenize (s ++ t) = do
    let ts ← tokenize s
    let us ← (tokenize t).mapError (Error.moved s.utf8ByteSize)
    return ts.dropLast ++ us
  := by
  have hwhole : Place.ofText (s ++ t) = (Place.ofText s).extend t.toList := by
    rw [Place.ofText, String.toList_append]
    rfl
  have hbehind : (Place.mk ((Place.ofText s).offset + byteLength (Place.ofText s).rest)
      t.toList).tokens = (tokenize t).mapError (Error.moved s.utf8ByteSize) := by
    rw [Place.ofText, Nat.zero_add, byteLength_toList, tokenize, ← Place.tokens_moved]
    rfl
  have hextend := Place.tokens_extend ht (Place.ofText s)
  rw [← hwhole, hbehind] at hextend
  apply hextend.trans
  change (tokenize s).bind _ = _
  cases tokenize s with
  | error error => rfl
  | ok ts => cases tokenize t <;> rfl

/-- Blanks in front of a text only move its fault. -/
theorem tokenize_blanks_append {ws : String} (hws : AreBlanks ws.toList) (t : String) :
  tokenize (ws ++ t) = (tokenize t).mapError (Error.moved ws.utf8ByteSize)
  := by
  rw [tokenize, Place.ofText, String.toList_append, Place.tokens_congr (Place.read_blanks hws 0 _),
    Nat.zero_add, byteLength_toList, tokenize, ← Place.tokens_moved]
  rfl

/-- Blanks on both sides of a text only move its fault. -/
theorem tokenize_padded {ws vs : String} (hws : AreBlanks ws.toList) (hvs : AreBlanks vs.toList)
    (text : String) :
  tokenize (ws ++ text ++ vs) = (tokenize text).mapError (Error.moved ws.utf8ByteSize)
  := by
  have hbegins : BeginsBlank vs.toList := fun c hc => hvs c (List.mem_of_mem_head? hc)
  have hblank : tokenize vs = .ok [.endOfInput] := (Splits.blanks hvs).spells 0
  have hbehind : tokenize (text ++ vs) = tokenize text := by
    rw [tokenize_append hbegins, hblank]
    cases htext : tokenize text with
    | error error => rfl
    | ok tokens =>
      obtain ⟨ts, rfl, -⟩ := Place.tokens_eq_concat htext
      change Except.ok (List.dropLast _ ++ _) = _
      rw [List.dropLast_concat]
  rw [String.append_assoc, tokenize_blanks_append hws, hbehind]

/-! ### Blanks around a text -/

/-- The number of bytes of the blanks in front of a text. -/
def indentation (text : String) : Nat :=
  byteLength (text.toList.takeWhile Text.isBlank)

/-- A text consists of the blanks in front, the text without the blanks around it, and blanks. -/
theorem exists_trim (text : String) :
  ∃ ws : String, AreBlanks ws.toList ∧
    text = String.ofList (text.toList.takeWhile Text.isBlank) ++ Text.trim text ++ ws
  := by
  let inner := text.toList.dropWhile Text.isBlank
  use String.ofList (inner.reverse.takeWhile Text.isBlank).reverse
  constructor
  · intro c hc
    rw [String.toList_ofList] at hc
    apply List.mem_takeWhile_imp (List.mem_reverse.mp hc)
  · rw [Text.trim, ← String.ofList_append, ← String.ofList_append, List.append_assoc,
      ← List.reverse_append, List.takeWhile_append_dropWhile, List.reverse_reverse,
      List.takeWhile_append_dropWhile, String.ofList_toList]

/-- The blanks around a text only move the offset of an error. -/
theorem tokenize_eq_trim (text : String) :
  tokenize text = (tokenize (Text.trim text)).mapError (Error.moved (indentation text))
  := by
  obtain ⟨ws, hws, htext⟩ := exists_trim text
  have hfront : AreBlanks (String.ofList (text.toList.takeWhile Text.isBlank)).toList := by
    intro c hc
    rw [String.toList_ofList] at hc
    apply List.mem_takeWhile_imp hc
  have hpadded := tokenize_padded hfront hws (Text.trim text)
  rw [← htext, utf8ByteSize_ofList] at hpadded
  apply hpadded

end Calculator
