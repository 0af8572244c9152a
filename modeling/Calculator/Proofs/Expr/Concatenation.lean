import Calculator.Proofs.Expr.Refusal
import Calculator.Proofs.Token.Whitespace

/-!
# Texts put together at a blank

Where a blank stands between two texts, both are read as if they stood alone.  The tokens of the
whole are those of the first text, without the end of the input, and those of the second; a fault
of the first text is that of the whole, and one of the second stands further on by the bytes in
front of it (`tokenize_append_singleton`).

What a text spells depends on its tokens alone (`parse_of_tokenize_moved`), so that blanks at its two
ends change neither whether it spells an expression nor which one.
-/

namespace Calculator

/-- What is read from two texts with a blank between them. -/
theorem tokenize_append_singleton {w : Char} (hw : Text.isBlank w = true) (s t : String) :
  tokenize (s ++ String.singleton w ++ t) = do
    let ts ← tokenize s
    let us ← (tokenize t).mapError (Error.moved (s ++ String.singleton w).utf8ByteSize)
    return ts.dropLast ++ us
  := by
  have hblank : AreBlanks (String.singleton w).toList := by
    intro c hc
    rw [String.toList_singleton, List.mem_singleton] at hc
    rw [hc, hw]
  have hbegins : BeginsBlank (String.singleton w ++ t).toList := by
    intro c hc
    rw [String.toList_append, String.toList_singleton] at hc
    rw [← Option.some.inj hc, hw]
  have hmoved : (Error.moved s.utf8ByteSize) ∘ (Error.moved (String.singleton w).utf8ByteSize)
      = Error.moved (s ++ String.singleton w).utf8ByteSize := by
    funext error
    rw [String.utf8ByteSize_append]
    cases error <;> simp [Error.moved, Nat.add_assoc]
  rw [String.append_assoc, tokenize_append hbegins, tokenize_blanks_append hblank]
  cases tokenize t with
  | ok us => rfl
  | error error =>
    rw [← hmoved]
    rfl

/-- A text that has the tokens of another one, or its fault further on, spells the same expression,
or has the same error further on. -/
theorem parse_of_tokenize_moved {s t : String} {bytes : Nat}
    (h : tokenize s = (tokenize t).mapError (Error.moved bytes)) :
  parse s = (parse t).mapError (Error.moved bytes)
  := by
  rcases parse_cases t with ⟨fault, htokens, -, hparse⟩ | ⟨htokens, hparse⟩ |
    ⟨tokens, htokens, hne, hreports⟩
  · rw [htokens] at h
    rw [parse_of_tokenize_error h, hparse]
    rfl
  · rw [htokens] at h
    rw [parse_of_endOfInput h, hparse]
    rfl
  · rw [htokens] at h
    rw [parse_of_tokenize h hne, ← parse_of_tokenize htokens hne]
    cases hparse : parse t with
    | ok expression => rfl
    | error error =>
      have hlexical : error.kind ≠ .lexical := by
        rw [(hreports error hparse).kind_eq.1]
        exact ErrorKind.noConfusion
      rw [Except.mapError, Error.moved_of_kind hlexical]

/-- Reading is a homomorphism over blanks.  The whole of two texts with a blank between them has the
fault of the first text, or the tokens of both with one end of the input, or the fault of the second
text further on by the bytes up to the blank.  Blanks around a text change neither whether it spells
an expression nor which one, and of its errors only where a lexical one stands. -/
theorem tokenize_append_blank :
  (∀ (s t : String) (w : Char), Text.isBlank w = true →
    (∀ error : Error, tokenize s = .error error →
      tokenize (s ++ String.singleton w ++ t) = .error error) ∧
    ∀ ts : List Token, tokenize s = .ok ts →
      ts.getLast? = some .endOfInput ∧
      (∀ us : List Token, tokenize t = .ok us →
        tokenize (s ++ String.singleton w ++ t) = .ok (ts.dropLast ++ us)) ∧
      ∀ error : Error, tokenize t = .error error → error.kind = .lexical ∧
        tokenize (s ++ String.singleton w ++ t)
          = .error (error.moved (s ++ String.singleton w).utf8ByteSize)) ∧
  ∀ ws text vs : String, AreBlanks ws.toList → AreBlanks vs.toList →
    parse (ws ++ text ++ vs) = (parse text).mapError (Error.moved ws.utf8ByteSize)
  := by
  constructor
  · intro s t w hw
    have hwhole := tokenize_append_singleton hw s t
    constructor
    · intro error hs
      rw [hwhole, hs]
      rfl
    · intro ts hs
      rw [hwhole, hs]
      obtain ⟨before, rfl, -⟩ := Place.tokens_eq_concat hs
      refine ⟨List.getLast?_concat, ?_, ?_⟩
      · intro us ht
        rw [ht]
        rfl
      · intro error ht
        rw [ht]
        use kind_of_tokenize ht
        rfl
  · intro ws text vs hws hvs
    apply parse_of_tokenize_moved (tokenize_padded hws hvs text)

/-- The dollar sign after `x` and an ideographic space stands at the fifth byte, and a space and a
line feed around `x` change nothing. -/
theorem tokenize_append_blank_ideographic_space :
  Text.isBlank '\u3000' = true ∧ tokenize "x" = .ok [.identifier "x", .endOfInput] ∧
    tokenize "$" = .error (.unexpectedCharacter '$' 0) ∧
    tokenize ("x" ++ String.singleton '\u3000' ++ "$") = .error (.unexpectedCharacter '$' 4) ∧
    AreBlanks " ".toList ∧ AreBlanks "\n".toList ∧ parse (" " ++ "x" ++ "\n") = .ok (.variable "X")
  := by
  have hx : tokenize "x" = .ok [.identifier "x", .endOfInput] := by
    have hspells : Spells ['x'] [.identifier "x", .endOfInput] := by
      apply @Spells.identifier 'x' [] [] [.endOfInput] rfl (List.all_eq_true.mp rfl) _ Spells.nil
      intro d hd
      cases hd
    apply hspells 0
  have hdollar : tokenize "$" = .error (.unexpectedCharacter '$' 0) :=
    Place.tokens_of_read_error (by decide +kernel)
  have hblank : Text.isBlank '\u3000' = true := by decide
  have hspace : AreBlanks " ".toList := by
    intro c hc
    cases List.mem_singleton.mp hc
    rfl
  have hline : AreBlanks "\n".toList := by
    intro c hc
    cases List.mem_singleton.mp hc
    rfl
  have hparse : parse "x" = .ok (.variable "X") := by
    rw [parse, if_neg (by decide), hx]
    rfl
  refine ⟨hblank, hx, hdollar, ?_, hspace, hline, ?_⟩
  · apply (((tokenize_append_blank.1 "x" "$" '\u3000' hblank).2 _ hx).2.2 _ hdollar).2
  · rw [tokenize_append_blank.2 " " "x" "\n" hspace hline, hparse]
    rfl

end Calculator
