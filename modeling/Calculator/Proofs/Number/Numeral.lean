import Calculator.Proofs.Number.ReadBack
import Calculator.Token.Lexer

/-!
# Numerals

`IsNumeral literal x` says that a text is scanned and read as the number `x`, whatever follows
it, as long as this is neither a digit nor a point.  The text of a finite number is its sign and
a numeral of its size (`toList_numberText`): its digits have the value of the shortest decimal of
the number (`positional_eq`), and digits with a point among them are read as the number nearest
to their value (`isNumeral_numeral`).
-/

namespace Calculator

/-! ### Digits and their value -/

/-- The value of digits after other digits. -/
theorem digitsValue_append (ds ds' : List Char) :
  digitsValue (ds ++ ds') = 10 ^ ds'.length * digitsValue ds + digitsValue ds'
  := (Nat.ofDigitChars_append 0).trans Nat.ofDigitChars_eq_ofDigitChars_zero

/-- Zeros have no value. -/
theorem digitsValue_replicate (count : Nat) :
  digitsValue (List.replicate count '0') = 0
  := Nat.ofDigitChars_replicate_zero.trans (Nat.mul_zero _)

/-- Digits have the value of the number that they are the digits of. -/
theorem digitsValue_digits (n : Nat) :
  digitsValue (digits n) = n
  := Nat.ofDigitChars_ten_toDigits

/-- Zeros in front do not change the value. -/
theorem digitsValue_paddedDigits (count n : Nat) :
  digitsValue (paddedDigits count n) = n
  := by
  rw [paddedDigits, digitsValue_append, digitsValue_replicate, digitsValue_digits, Nat.mul_zero,
    Nat.zero_add]

/-- The digits of a number are digits. -/
theorem isDigit_of_mem_digits {n : Nat} {c : Char} (h : c ∈ digits n) :
  c.isDigit = true
  := Nat.isDigit_of_mem_toDigits (by decide) (by decide) h

/-- Padded digits are digits. -/
theorem isDigit_of_mem_paddedDigits {count n : Nat} {c : Char} (h : c ∈ paddedDigits count n) :
  c.isDigit = true
  := by
  rcases List.mem_append.mp h with h | h
  · rw [List.eq_of_mem_replicate h]
    decide
  · apply isDigit_of_mem_digits h

/-- Digits are padded to the count. -/
theorem length_paddedDigits {count n : Nat} (hcount : 0 < count) (hn : n < 10 ^ count) :
  (paddedDigits count n).length = count
  := by
  have hle : (digits n).length ≤ count := (Nat.length_toDigits_le_iff (by decide) hcount).mpr hn
  simp only [paddedDigits, List.length_append, List.length_replicate]
  omega

/-- A text without the zeros at its end. -/
def withoutZeros (ds : List Char) : List Char :=
  (ds.reverse.dropWhile (· == '0')).reverse

/-- Only zeros are taken from the end. -/
theorem exists_withoutZeros (ds : List Char) :
  ∃ count : Nat, ds = withoutZeros ds ++ List.replicate count '0'
  := by
  use (ds.reverse.takeWhile (· == '0')).length
  have hzeros : ds.reverse.takeWhile (· == '0')
      = List.replicate (ds.reverse.takeWhile (· == '0')).length '0' := by
    apply List.eq_replicate_of_mem
    intro c hc
    apply eq_of_beq
    apply List.mem_takeWhile_imp hc
  rw [← List.reverse_replicate, ← hzeros, withoutZeros, ← List.reverse_append,
    List.takeWhile_append_dropWhile, List.reverse_reverse]

/-- What is left without the zeros was there before. -/
theorem mem_of_mem_withoutZeros {ds : List Char} {c : Char} (h : c ∈ withoutZeros ds) :
  c ∈ ds
  := by
  apply List.mem_reverse.mp
  apply (List.dropWhile_sublist _).subset (List.mem_reverse.mp h)

/-- Zeros at the end of the decimals do not change the value. -/
theorem digitsValue_withoutZeros (whole decimals : List Char) :
  (digitsValue (whole ++ withoutZeros decimals) : ℚ) / 10 ^ (withoutZeros decimals).length
    = digitsValue (whole ++ decimals) / 10 ^ decimals.length
  := by
  obtain ⟨count, hzeros⟩ := exists_withoutZeros decimals
  generalize withoutZeros decimals = kept at hzeros ⊢
  rw [hzeros, ← List.append_assoc, digitsValue_append (whole ++ kept), digitsValue_replicate,
    Nat.add_zero, List.length_append, List.length_replicate, pow_add]
  push_cast
  field_simp

/-! ### Numerals -/

/-- The text of digits with a point before the last ones, if there are any. -/
def numeral (whole : List Char) : List Char → List Char
  | [] => whole
  | decimals => whole ++ '.' :: decimals

/-- A run of digits goes on with what is after them. -/
theorem numberRun_append {ds : List Char} (hds : ∀ d ∈ ds, d.isDigit = true) (pointSeen : Bool)
    (rest : List Char) :
  numberRun pointSeen (ds ++ rest)
    = (ds ++ (numberRun pointSeen rest).1, (numberRun pointSeen rest).2)
  := by
  induction ds with
  | nil => rfl
  | cons d ds ih =>
    rw [List.cons_append, Place.numberRun_digit (hds d List.mem_cons_self),
      ih (fun c hc => hds c (List.mem_cons_of_mem d hc))]
    rfl

/-- A run ends before a character that is no digit and no point. -/
theorem numberRun_of_head {rest : List Char} (pointSeen : Bool)
    (hrest : ∀ d ∈ rest.head?, d.isDigit = false ∧ d ≠ '.') :
  numberRun pointSeen rest = ([], rest)
  := by
  cases rest with
  | nil => rfl
  | cons d rest =>
    obtain ⟨hdigit, hpoint⟩ := hrest d rfl
    simp [numberRun, hdigit, hpoint]

/-- A numeral is a run of its own. -/
theorem numberRun_numeral {whole decimals rest : List Char}
    (hwhole : ∀ d ∈ whole, d.isDigit = true) (hdecimals : ∀ d ∈ decimals, d.isDigit = true)
    (hrest : ∀ d ∈ rest.head?, d.isDigit = false ∧ d ≠ '.') :
  numberRun false (numeral whole decimals ++ rest) = (numeral whole decimals, rest)
  := by
  cases decimals with
  | nil =>
    rw [numeral, numberRun_append hwhole, numberRun_of_head false hrest, List.append_nil]
  | cons d ds =>
    rw [numeral, List.append_assoc, numberRun_append hwhole, List.cons_append,
      Place.numberRun_point, numberRun_append hdecimals, numberRun_of_head true hrest,
      List.append_nil]
    intro h
    cases h

/-- The digits of a numeral before the point and after it. -/
theorem takeWhile_numeral {whole : List Char} (decimals : List Char)
    (hwhole : ∀ d ∈ whole, d.isDigit = true) :
  (numeral whole decimals).takeWhile (· != '.') = whole ∧
    ((numeral whole decimals).dropWhile (· != '.')).drop 1 = decimals
  := by
  have hpoint : ∀ d ∈ whole, (d != '.') = true := by
    intro d hd
    apply bne_iff_ne.mpr
    rintro rfl
    cases hwhole '.' hd
  cases decimals with
  | nil =>
    rw [numeral]
    constructor
    · apply List.takeWhile_eq_self_iff.mpr hpoint
    · rw [List.dropWhile_eq_nil_iff.mpr hpoint, List.drop_nil]
  | cons d ds =>
    rw [numeral, List.takeWhile_append_of_pos hpoint, List.dropWhile_append_of_pos hpoint]
    · simp
    · intro h
      cases h

/-- A numeral is read as the number nearest to its value. -/
theorem numberValue?_numeral {whole decimals : List Char} (hne : whole ≠ [])
    (hwhole : ∀ d ∈ whole, d.isDigit = true) :
  numberValue? (numeral whole decimals)
    = some (Float.ofScientific (digitsValue (whole ++ decimals)) true decimals.length)
  := by
  obtain ⟨htake, hdrop⟩ := takeWhile_numeral decimals hwhole
  have hempty : whole.isEmpty = false := List.isEmpty_eq_false_iff.mpr hne
  simp only [numberValue?, htake, hdrop, hempty, Bool.false_and, Bool.false_eq_true, if_false]

/-- The digits of a number, split at a place, have its value. -/
theorem digitsValue_split (n : Nat) {places : Nat} (hplaces : 0 < places) :
  digitsValue (digits (n / 10 ^ places) ++ paddedDigits places (n % 10 ^ places)) = n
  := by
  have hmod : n % 10 ^ places < 10 ^ places := Nat.mod_lt n (Nat.pow_pos (by decide))
  rw [digitsValue_append, length_paddedDigits hplaces hmod, digitsValue_digits,
    digitsValue_paddedDigits, Nat.div_add_mod]

/-- The text of a decimal is a numeral of its value. -/
theorem positional_eq (x : Decimal) :
  ∃ whole decimals : List Char, x.positional = numeral whole decimals ∧ whole ≠ [] ∧
    (∀ d ∈ whole, d.isDigit = true) ∧ (∀ d ∈ decimals, d.isDigit = true) ∧
    (digitsValue (whole ++ decimals) : ℚ) / 10 ^ decimals.length = x.value
  := by
  rw [Decimal.positional, x.value_eq]
  split
  · rename_i hexponent
    have hunit : (-x.exponent).toNat = 0 := by omega
    use digits (x.significand * 10 ^ x.exponent.toNat), []
    refine ⟨rfl, Nat.toDigits_ne_nil, fun d hd => isDigit_of_mem_digits hd, ?_, ?_⟩
    · intro d hd
      cases hd
    · rw [List.append_nil, digitsValue_digits, hunit, Nat.pow_zero, Nat.cast_one]
      rfl
  · rename_i hexponent
    have hscale : x.exponent.toNat = 0 := by omega
    have hplaces : 0 < (-x.exponent).toNat := by omega
    rw [hscale, Nat.pow_zero, Nat.mul_one]
    generalize (-x.exponent).toNat = places at hplaces
    have hmod : x.significand % 10 ^ places < 10 ^ places :=
      Nat.mod_lt x.significand (Nat.pow_pos (by decide))
    use digits (x.significand / 10 ^ places),
      withoutZeros (paddedDigits places (x.significand % 10 ^ places))
    refine ⟨?_, Nat.toDigits_ne_nil, fun d hd => isDigit_of_mem_digits hd, ?_, ?_⟩
    · change (match withoutZeros (paddedDigits places (x.significand % 10 ^ places)) with
        | [] => digits (x.significand / 10 ^ places)
        | kept => digits (x.significand / 10 ^ places) ++ '.' :: kept) = _
      cases withoutZeros (paddedDigits places (x.significand % 10 ^ places)) <;> rfl
    · intro d hd
      apply isDigit_of_mem_paddedDigits (mem_of_mem_withoutZeros hd)
    · rw [digitsValue_withoutZeros, digitsValue_split x.significand hplaces,
        length_paddedDigits hplaces hmod]
      push_cast
      rfl

/-! ### Texts of numbers -/

/-- A text without a sign that is read as a number where no digit and no point follows. -/
structure IsNumeral (literal : List Char) (value : Float) : Prop where
  isDigit : ∀ d ∈ literal.head?, d.isDigit = true
  nonempty : literal ≠ []
  run : ∀ rest : List Char, (∀ d ∈ rest.head?, d.isDigit = false ∧ d ≠ '.') →
    numberRun false (literal ++ rest) = (literal, rest)
  value : numberValue? literal = some value

/-- Digits with a point before the last ones are read as the number nearest to their value. -/
theorem isNumeral_numeral {whole decimals : List Char} (hne : whole ≠ [])
    (hwhole : ∀ d ∈ whole, d.isDigit = true) (hdecimals : ∀ d ∈ decimals, d.isDigit = true) :
  IsNumeral (numeral whole decimals)
    (Float.ofScientific (digitsValue (whole ++ decimals)) true decimals.length)
  := by
  obtain ⟨c, cs, rfl⟩ := List.exists_cons_of_ne_nil hne
  constructor
  · intro d hd
    apply hwhole
    cases decimals <;> cases hd <;> apply List.mem_cons_self
  · cases decimals <;> apply List.cons_ne_nil
  · intro rest hrest
    apply numberRun_numeral hwhole hdecimals hrest
  · apply numberValue?_numeral hne hwhole

/-- The text of zero is read as zero. -/
theorem isNumeral_zero :
  IsNumeral ['0'] (Float.ofScientific 0 true 0)
  := by
  have hzero : ∀ d ∈ ['0'], d.isDigit = true := by
    intro d hd
    rw [List.mem_singleton.mp hd]
    rfl
  apply @isNumeral_numeral ['0'] [] (List.cons_ne_nil _ _) hzero
  intro d hd
  cases hd

/-- The text of a finite number is its sign and a numeral of its size. -/
theorem toList_numberText {x : Float} {negative : Bool} {m : Nat} {e : Int}
    (h : Reading.ofFloat x = .finite negative m e) :
  ∃ literal : List Char,
    (numberText x).toList = (if negative then ['-'] else []) ++ literal ∧
    IsNumeral literal x.abs
  := by
  have hsign : (signText negative).toList = if negative then ['-'] else [] := by
    cases negative <;> rfl
  have habs := Reading.ofFloat_abs h
  have hc := Reading.isCanonical_of_ofFloat h
  rw [numberText, h]
  simp only [String.toList_append, hsign]
  by_cases hm : m = 0
  · have he : e = -1074 := by
      have hnormal := hc.normal
      omega
    have hzero : Reading.ofFloat (Float.ofScientific 0 true 0) = .finite false 0 (-1074) := by
      decide +kernel
    rw [hm, he] at habs
    rw [if_pos hm]
    use ['0'], rfl
    rw [Reading.eq_of_ofFloat habs hzero]
    apply isNumeral_zero
  · have hpos : 0 < m := Nat.pos_of_ne_zero hm
    obtain ⟨whole, decimals, htext, hne, hwhole, hdecimals, hvalue⟩ :=
      positional_eq (shortestDecimal m e)
    have hnearest := isNearest_shortestDecimal hc hpos
    rw [← hvalue] at hnearest
    rw [if_neg hm, htext, String.toList_ofList]
    use numeral whole decimals, rfl
    rw [Reading.eq_of_ofFloat habs (ofFloat_ofScientific hc hpos hnearest)]
    apply isNumeral_numeral hne hwhole hdecimals

end Calculator
