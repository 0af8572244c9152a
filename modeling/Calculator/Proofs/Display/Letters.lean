import Calculator.Display.Text
import Calculator.Proofs.Number.Numeral
import Calculator.Proofs.Text.Case

/-!
# Letters of the display

A decimal is an ASCII text (`isAscii_decimalText`), and so is a fraction.  What the display shows of
`π`, `°` and `√` comes from the multiples of π, the whole degrees and the square roots
(`Form.pi_notMem_render`, `Form.degreeSign_notMem_render`).
-/

namespace Calculator

instance (text : String) : Decidable (Text.IsAscii text) :=
  decidable_of_iff (text.toList.all (·.toNat < 128) = true) (by simp [Text.IsAscii])

namespace Text.IsAscii

variable {s t : String}

/-- A text of two ASCII parts is ASCII. -/
theorem append (hs : IsAscii s) (ht : IsAscii t) :
  IsAscii (s ++ t)
  := by
  intro c hc
  rw [String.toList_append, List.mem_append] at hc
  apply hc.elim (hs c) (ht c)

/-- A character that is not ASCII is not in an ASCII text. -/
theorem notMem {c : Char} (h : IsAscii s) (hc : 128 ≤ c.toNat) :
  c ∉ s.toList
  := fun hmem => Nat.not_lt.mpr hc (h c hmem)

/-- Digits are an ASCII text. -/
theorem ofList_digits {ds : List Char} (h : ∀ d ∈ ds, d.isDigit = true) :
  IsAscii (String.ofList ds)
  := by
  intro c hc
  rw [String.toList_ofList] at hc
  apply toNat_lt_of_isDigit (h c hc)

/-- A natural number is an ASCII text. -/
theorem toString_nat (n : Nat) :
  IsAscii (toString n)
  := by
  intro c hc
  rw [Nat.toString_eq_repr, Nat.toList_repr] at hc
  apply toNat_lt_of_isDigit (isDigit_of_mem_digits hc)

/-- An integer is an ASCII text. -/
theorem toString_int (n : Int) :
  IsAscii (toString n)
  := by
  cases n with
  | ofNat n => apply toString_nat
  | negSucc n => apply append (s := "-") (by decide) (toString_nat (n + 1))

/-- A sign is an ASCII text. -/
theorem signText (negative : Bool) :
  IsAscii (signText negative)
  := by
  cases negative <;> decide

/-- A factor of π is an ASCII text. -/
theorem factorText (p : Int) :
  IsAscii (Form.factorText p)
  := by
  rw [Form.factorText]
  split
  · decide
  · split
    · decide
    · apply toString_int

/-- A denominator is an ASCII text. -/
theorem denominatorText (d : Nat) :
  IsAscii (Form.denominatorText d)
  := by
  rw [Form.denominatorText]
  split
  · decide
  · apply append (by decide) (toString_nat d)

end Text.IsAscii

open Text (IsAscii)

/-! ### Decimals -/

/-- The characters of the digits with decimals of a quotient. -/
theorem mem_fixedDigits {places n d : Nat} {c : Char} (h : c ∈ fixedDigits places n d) :
  c.isDigit = true ∨ c = '.'
  := by
  rw [fixedDigits] at h
  split at h
  · left
    apply isDigit_of_mem_digits h
  · rcases List.mem_append.mp h with hwhole | hdecimals
    · left
      apply isDigit_of_mem_digits hwhole
    · rcases List.mem_cons.mp hdecimals with hpoint | hdecimals
      · right
        apply hpoint
      · left
        apply isDigit_of_mem_paddedDigits hdecimals

/-- A number with decimals is an ASCII text. -/
theorem isAscii_fixedText (places : Nat) (x : Float) :
  IsAscii (fixedText places x)
  := by
  rw [fixedText]
  split
  · apply (IsAscii.signText _).append
    intro c hc
    rw [String.toList_ofList] at hc
    rcases mem_fixedDigits hc with hdigit | rfl
    · apply Text.toNat_lt_of_isDigit hdigit
    · decide
  · rw [unboundedText]
    split
    · apply (IsAscii.signText _).append
      decide
    · decide

/-- The digits in front of a power of ten are an ASCII text. -/
theorem isAscii_exponentialParts (places : Nat) (negative : Bool) (m : Nat) (e : Int) :
  IsAscii (exponentialParts places negative m e).1
  := by
  apply (IsAscii.signText negative).append
  intro c hc
  rw [String.toList_ofList] at hc
  have hdigits : ∀ count n : Nat, ∀ c ∈ paddedDigits count n, c.toNat < 128 :=
    fun _ _ _ hc => Text.toNat_lt_of_isDigit (isDigit_of_mem_paddedDigits hc)
  split at hc
  · rename_i d d' rest hlist
    have hmem := hlist ▸ hdigits _ _
    rw [List.mem_cons, List.mem_cons] at hc
    rcases hc with rfl | rfl | hc
    · apply hmem _ List.mem_cons_self
    · decide
    · apply hmem _ (List.mem_cons_of_mem _ hc)
  · apply hdigits _ _ c hc

/-- A number with a power of ten is an ASCII text. -/
theorem isAscii_scientificText (negative : Bool) (m : Nat) (e : Int) :
  IsAscii (scientificText negative m e)
  := by
  have hsign : ∀ power : Int, IsAscii (if power < 0 then "-" else "+") := by
    intro power
    split <;> decide
  have hletter : IsAscii "e" := by decide
  apply (((isAscii_exponentialParts 6 negative m e).append hletter).append (hsign _)).append
  apply IsAscii.ofList_digits
  intro d hd
  apply isDigit_of_mem_paddedDigits hd

/-- A decimal is an ASCII text. -/
theorem isAscii_decimalText (x : Float) :
  IsAscii (decimalText x)
  := by
  rw [decimalText]
  split
  · decide
  · apply (IsAscii.signText _).append
    decide
  · split
    · decide
    · split
      · apply IsAscii.toString_int
      · split
        · apply isAscii_scientificText
        · apply isAscii_fixedText

/-! ### Forms -/

namespace Form

/-- A fraction is an ASCII text. -/
theorem isAscii_fraction (p : Int) (q : Nat) :
  IsAscii (fraction p q).render
  := (IsAscii.toString_int p).append (IsAscii.denominatorText q)

/-- There is a π in a multiple of π other than zero. -/
theorem pi_mem_render {p : Int} (hp : p ≠ 0) (q : Nat) :
  'π' ∈ (piMultiple p q).render.toList
  := by
  rw [render, if_neg hp, String.toList_append, String.toList_append]
  simp

/-- There is a degree sign in a whole number of degrees. -/
theorem degreeSign_mem_render (n : Int) :
  '°' ∈ (degrees n).render.toList
  := by
  rw [render, String.toList_append]
  simp

/-- There is a slash in a fraction with a denominator other than one. -/
theorem slash_mem_render (p : Int) {q : Nat} (hq : q ≠ 1) :
  '/' ∈ (fraction p q).render.toList
  := by
  rw [render, denominatorText, if_neg hq, String.toList_append, String.toList_append]
  simp

/-- There is a radical sign in a square root. -/
theorem radical_mem_render (negative : Bool) (radicand : Nat) :
  '√' ∈ (root negative radicand).render.toList
  := by
  rw [render, String.toList_append, String.toList_append]
  simp

/-- There is no π in a form that is neither a multiple of π nor a constant with a text of its
own. -/
theorem pi_notMem_render {form : Form} (hnamed : ∀ text value, form ≠ .named text value)
    (hmultiple : ∀ p q, form ≠ .piMultiple p q) :
  'π' ∉ form.render.toList
  := by
  cases form with
  | named text value => cases hnamed text value rfl
  | piMultiple p q => cases hmultiple p q rfl
  | degrees n =>
    rw [render, String.toList_append, List.mem_append, not_or]
    use (IsAscii.toString_int n).notMem (by decide), by decide
  | fraction p q => apply (isAscii_fraction p q).notMem (by decide)
  | root negative n =>
    rw [render, String.toList_append, String.toList_append, List.mem_append, List.mem_append,
      not_or, not_or]
    use ⟨(IsAscii.signText negative).notMem (by decide), by decide⟩
    apply (IsAscii.toString_nat n).notMem (by decide)

/-- There is no degree sign in a form that is neither a whole number of degrees nor a constant
with a text of its own. -/
theorem degreeSign_notMem_render {form : Form} (hnamed : ∀ text value, form ≠ .named text value)
    (hdegrees : ∀ n, form ≠ .degrees n) :
  '°' ∉ form.render.toList
  := by
  cases form with
  | named text value => cases hnamed text value rfl
  | degrees n => cases hdegrees n rfl
  | piMultiple p q =>
    rw [render]
    split
    · decide
    · rw [String.toList_append, String.toList_append, List.mem_append, List.mem_append, not_or,
        not_or]
      use ⟨(IsAscii.factorText p).notMem (by decide), by decide⟩
      apply (IsAscii.denominatorText q).notMem (by decide)
  | fraction p q => apply (isAscii_fraction p q).notMem (by decide)
  | root negative n =>
    rw [render, String.toList_append, String.toList_append, List.mem_append, List.mem_append,
      not_or, not_or]
    use ⟨(IsAscii.signText negative).notMem (by decide), by decide⟩
    apply (IsAscii.toString_nat n).notMem (by decide)

end Form

end Calculator
