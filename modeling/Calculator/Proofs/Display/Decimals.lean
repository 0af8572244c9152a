import Calculator.Display.Text
import Calculator.Proofs.Display.Nearness
import Calculator.Proofs.Number.SignificantDigits

/-!
# Decimals of the display

A number that is not shown as zero or as an integer is shown with ten significant digits, or with
seven and a power of ten, correctly rounded (`decimalText_rounded`).

* `IsPlainDecimal` and `IsScientific` say what such texts look like and which value they have.
* The places of a plain decimal are counted from the power of ten of a first rounding, and the value
  is then rounded again at the last of them.  Both round to the same digits, also where the first
  rounding carries (`isPlainDecimal_significantText`).
* The limits between the two notations and zero are decimals that lie between the numbers that they
  are compared as and the numbers before them (`decimalText_eq`), so that these are limits for the
  exact values.
-/

namespace Calculator

/-! ### Texts -/

/-- A decimal with a point, no zeros in front of its whole part and a number of significant digits,
to which a size with a sign is rounded. -/
def IsPlainDecimal (count : Nat) (negative : Bool) (v : ℚ) (text : String) : Prop :=
  ∃ (whole : Nat) (decimals : List Char),
    text.toList = (signText negative).toList ++ (digits whole ++ '.' :: decimals) ∧
    decimals ≠ [] ∧ (∀ d ∈ decimals, d.isDigit = true) ∧
    ((digits whole ++ decimals).dropWhile (· == '0')).length = count ∧
    RoundsToDigits count v (digitsValue (digits whole ++ decimals) / 10 ^ decimals.length)

/-- The sign of a power of ten, which is always written. -/
def powerSign (power : Int) : Char :=
  if power < 0 then '-' else '+'

/-- A decimal with a point after its first digit, which is not zero, and a power of ten of at least
two digits, to which a size with a sign is rounded. -/
def IsScientific (count : Nat) (negative : Bool) (v : ℚ) (text : String) : Prop :=
  ∃ (leading : Char) (decimals powerDigits : List Char) (power : Int),
    text.toList = (signText negative).toList ++
      (leading :: '.' :: decimals ++ 'e' :: powerSign power :: powerDigits) ∧
    leading.isDigit = true ∧ leading ≠ '0' ∧ (∀ d ∈ decimals, d.isDigit = true) ∧
    decimals.length + 1 = count ∧ (∀ d ∈ powerDigits, d.isDigit = true) ∧
    2 ≤ powerDigits.length ∧ digitsValue powerDigits = power.natAbs ∧
    RoundsToDigits count v
      (digitsValue (leading :: decimals) / 10 ^ decimals.length * 10 ^ power)

/-- Digits are padded to the count at least. -/
theorem le_length_paddedDigits (count n : Nat) :
  count ≤ (paddedDigits count n).length
  := by
  simp only [paddedDigits, List.length_append, List.length_replicate]
  omega

/-- The digits before and after the point of a number with decimals. -/
theorem toList_fixedText {x : Float} {negative : Bool} {m : Nat} {e : Int} {places : Nat}
    (hread : Reading.ofFloat x = .finite negative m e) (hplaces : 0 < places) :
  ∃ scaled : Nat, RoundsTo (m * 2 ^ e * 10 ^ places) scaled ∧
    (fixedText places x).toList = (signText negative).toList ++
      (digits (scaled / 10 ^ places) ++ '.' :: paddedDigits places (scaled % 10 ^ places))
  := by
  use Rounding.nearestEven.quotient false (scaledNumerator m e * 10 ^ places) (scaledDenominator e)
  constructor
  · have hround := Rounding.roundsTo_quotient_nearestEven (scaledNumerator m e * 10 ^ places)
      (scaledDenominator_pos e)
    rw [Nat.cast_mul, mul_div_right_comm, scaledNumerator_div_scaledDenominator] at hround
    push_cast at hround
    apply hround
  · rw [fixedText, hread]
    simp only [fixedDigits, if_neg (Nat.ne_of_gt hplaces), String.toList_append,
      String.toList_ofList, Nat.pow_eq]

section Rounded

variable {m : Nat} {e : Int} (negative : Bool) (places : Nat)

/-- The decimal to which a positive mantissa with an exponent is rounded. -/
def roundedDecimal (m : Nat) (e : Int) (places : Nat) : Decimal :=
  .ofQuotient (places + 1) (scaledNumerator m e) (scaledDenominator e)

/-- A positive mantissa with an exponent is rounded to the digits asked for. -/
theorem isRounding_roundedDecimal (hm : 0 < m) :
  (roundedDecimal m e places).IsRounding (places + 1) (m * 2 ^ e)
  := by
  have hround := Decimal.isRounding_ofQuotient (Nat.succ_pos places) (scaledNumerator_pos hm e)
    (scaledDenominator_pos e)
  rw [scaledNumerator_div_scaledDenominator] at hround
  apply hround

/-- The power of ten of a number with a power of ten. -/
theorem exponentialParts_snd (hm : 0 < m) :
  (exponentialParts places negative m e).2 = (roundedDecimal m e places).exponent + places
  := by
  rw [exponentialParts, if_neg (Nat.ne_of_gt hm)]
  rfl

/-- The digits in front of a power of ten. -/
theorem toList_exponentialParts (hm : 0 < m) (hplaces : 0 < places) :
  ∃ (leading : Char) (decimals : List Char),
    (exponentialParts places negative m e).1.toList
      = (signText negative).toList ++ (leading :: '.' :: decimals) ∧
    leading :: decimals = paddedDigits (places + 1) (roundedDecimal m e places).significand
  := by
  have hlength := length_paddedDigits (Nat.succ_pos places)
    (isRounding_roundedDecimal (e := e) places hm).high
  rcases hdigits : paddedDigits (places + 1) (roundedDecimal m e places).significand with
    _ | ⟨leading, _ | ⟨next, rest⟩⟩
  · rw [hdigits] at hlength
    cases hlength
  · rw [hdigits, List.length_singleton] at hlength
    omega
  · use leading, next :: rest
    constructor
    · rw [roundedDecimal] at hdigits
      rw [exponentialParts, if_neg (Nat.ne_of_gt hm)]
      simp only [hdigits, String.toList_append, String.toList_ofList]
    · rfl

end Rounded

/-- A number in positional notation has the significant digits asked for, correctly rounded, if
some of them are decimals. -/
theorem isPlainDecimal_significantText {x : Float} {negative : Bool} {m places : Nat} {e : Int}
    (hread : Reading.ofFloat x = .finite negative m e) (hm : 0 < m)
    (hexponent : (roundedDecimal m e places).exponent < 0) :
  IsPlainDecimal (places + 1) negative (m * 2 ^ e)
    (significantText (places + 1) x negative m e)
  := by
  have hround := isRounding_roundedDecimal (e := e) places hm
  have hdecimal := hround.digits
  have hagain := hround.rounds
  obtain ⟨count, hcount⟩ := Int.exists_eq_neg_ofNat (Int.le_of_lt hexponent)
  have hpos : 0 < count := by omega
  have hplaces : ((places + 1 - 1 : Nat) - (exponentialParts (places + 1 - 1) negative m e).2).toNat
      = count := by
    rw [Nat.add_sub_cancel, exponentialParts_snd negative places hm, hcount]
    omega
  rw [Decimal.value, hcount, zpow_neg, zpow_natCast, ← div_eq_mul_inv] at hdecimal
  rw [hcount, zpow_neg, zpow_natCast, div_inv_eq_mul] at hagain
  obtain ⟨scaled, hscaled, htext⟩ := toList_fixedText hread hpos
  -- The value is rounded at the same place for a second time.
  obtain rfl := hagain.unique hscaled
  have hmod : (roundedDecimal m e places).significand % 10 ^ count < 10 ^ count :=
    Nat.mod_lt _ (Nat.pow_pos (by decide))
  have hlength := length_paddedDigits hpos hmod
  have hdecimals : ∀ d ∈ paddedDigits count ((roundedDecimal m e places).significand % 10 ^ count),
      d.isDigit = true := fun d hd => isDigit_of_mem_paddedDigits hd
  have hvalue := digitsValue_split (roundedDecimal m e places).significand hpos
  refine ⟨(roundedDecimal m e places).significand / 10 ^ count, _, ?_, ?_, hdecimals, ?_, ?_⟩
  · rw [significantText]
    simp only [hplaces]
    apply htext
  · apply List.ne_nil_of_length_pos
    omega
  · apply length_dropWhile_zero _ (Nat.succ_pos places)
    · rw [hvalue]
      apply hround.low
    · rw [hvalue]
      apply hround.high
    · intro d hd
      rcases List.mem_append.mp hd with hd | hd
      · apply isDigit_of_mem_digits hd
      · apply hdecimals d hd
  · rw [hvalue, hlength]
    apply hdecimal

/-- A number with a power of ten has seven significant digits, correctly rounded. -/
theorem isScientific_scientificText (negative : Bool) {m : Nat} (e : Int) (hm : 0 < m) :
  IsScientific 7 negative (m * 2 ^ e) (scientificText negative m e)
  := by
  have hround := isRounding_roundedDecimal (e := e) 6 hm
  have hlength := length_paddedDigits (Nat.succ_pos 6) hround.high
  have hdigits : ∀ d ∈ paddedDigits 7 (roundedDecimal m e 6).significand, d.isDigit = true :=
    fun d hd => isDigit_of_mem_paddedDigits hd
  have hvalue := digitsValue_paddedDigits 7 (roundedDecimal m e 6).significand
  obtain ⟨leading, decimals, htext, hparts⟩ :=
    toList_exponentialParts (e := e) negative 6 hm (by decide)
  rw [← hparts] at hlength hdigits hvalue
  rw [List.forall_mem_cons] at hdigits
  rw [List.length_cons] at hlength
  have hdecimals : decimals.length = 6 := by omega
  have hpower := exponentialParts_snd (e := e) negative 6 hm
  generalize hsum : (roundedDecimal m e 6).exponent + (6 : Nat) = power at hpower
  refine ⟨leading, decimals, paddedDigits 2 power.natAbs, power, ?_, hdigits.1, ?_, hdigits.2,
    hlength, fun d hd => isDigit_of_mem_paddedDigits hd, le_length_paddedDigits 2 _,
    digitsValue_paddedDigits 2 _, ?_⟩
  · have hsign : (if power < 0 then "-" else "+").toList = [powerSign power] := by
      rw [powerSign]
      split <;> rfl
    rw [scientificText]
    simp only [hpower, String.toList_append, htext, hsign, String.toList_ofList]
    simp
  · rintro rfl
    have hlow := hround.low
    have hlt := digitsValue_lt hdigits.2
    rw [← hvalue, digitsValue_cons, Nat.sub_self, Nat.mul_zero, Nat.zero_add] at hlow
    rw [hdecimals] at hlt
    apply absurd hlt (Nat.not_lt.mpr hlow)
  · have hdecimal := hround.digits
    have hscale : (10 : ℚ) ^ (roundedDecimal m e 6).exponent = 10 ^ power / 10 ^ decimals.length := by
      rw [← hsum, hdecimals, zpow_add₀ (by norm_num), zpow_natCast, mul_div_cancel_right₀]
      norm_num
    rw [Decimal.value, hscale] at hdecimal
    rw [hvalue, div_mul_eq_mul_div, ← mul_div_assoc']
    apply hdecimal

/-! ### Decimals -/

/-- The exact value of the size from which on numbers are written with a power of ten. -/
theorem hasValue_million :
  HasValue 1e6 (10 ^ 6)
  := by
  refine ⟨false, 8589934592000000, -33, by decide +kernel, ?_⟩
  norm_num

/-- How the size is read below which numbers are written with a power of ten. -/
theorem ofFloat_tenThousandth :
  Reading.ofFloat 1e-4 = .finite false 7378697629483821 (-66)
  := by
  decide +kernel

/-- How the tolerance is read. -/
theorem ofFloat_tolerance :
  Reading.ofFloat tolerance = .finite false 7737125245533627 (-86)
  := by
  decide +kernel

/-- The size of a number is below the tolerance exactly if its exact size is below the decimal. -/
theorem HasValue.abs_lt_tolerance_iff {x : Float} {v : ℚ} (h : HasValue x v) :
  x.abs < tolerance ↔ |v| < 1 / 10 ^ 10
  := by
  apply h.hasValue_abs.lt_iff_lt_literal (abs_nonneg v) ofFloat_tolerance (by decide)
  · norm_num
  · norm_num

/-- The decimal of a number that is not near to zero and not an integer of limited size. -/
theorem decimalText_eq {x : Float} {negative : Bool} {m : Nat} {e : Int} {v : ℚ}
    (hread : Reading.ofFloat x = .finite negative m e) (hx : HasValue x v)
    (hv : 1 / 10 ^ 10 ≤ |v|) (hwhole : whole? x = none) :
  decimalText x = if 1 / 10 ^ 4 ≤ |v| ∧ |v| ≤ 10 ^ 6 then significantText 10 x negative m e
    else scientificText negative m e
  := by
  have hzero : ¬x.abs < tolerance := by
    rw [hx.abs_lt_tolerance_iff]
    apply not_lt.mpr hv
  have hlarge : x.abs > 1e6 ↔ 10 ^ 6 < |v| := hasValue_million.lt_iff hx.hasValue_abs
  have hsmall : x.abs < 1e-4 ↔ |v| < 1 / 10 ^ 4 := by
    apply hx.hasValue_abs.lt_iff_lt_literal (abs_nonneg v) ofFloat_tenThousandth (by decide)
    · norm_num
    · norm_num
  rw [decimalText, hread]
  simp only [if_neg hzero, hwhole, hlarge, hsmall, Bool.or_eq_true, decide_eq_true_eq]
  by_cases hrange : 1 / 10 ^ 4 ≤ |v| ∧ |v| ≤ 10 ^ 6
  · rw [if_pos hrange, if_neg]
    rintro (hlt | hlt)
    · apply absurd hlt (not_lt.mpr hrange.2)
    · apply absurd hlt (not_lt.mpr hrange.1)
  · rw [if_neg hrange, if_pos]
    by_contra hnone
    rw [not_or, not_lt, not_lt] at hnone
    apply hrange ⟨hnone.2, hnone.1⟩

/-- A size up to a million has decimals among its ten significant digits. -/
theorem exponent_roundedDecimal_neg {m : Nat} {e : Int} (hm : 0 < m)
    (hsize : (m : ℚ) * 2 ^ e ≤ 10 ^ 6) :
  (roundedDecimal m e 9).exponent < 0
  := by
  have hround := isRounding_roundedDecimal (e := e) 9 hm
  have hlow : (10 : ℚ) ^ 9 ≤ (roundedDecimal m e 9).significand := by
    exact_mod_cast hround.low
  by_contra hexponent
  have hunit : (1 : ℚ) ≤ 10 ^ (roundedDecimal m e 9).exponent :=
    one_le_zpow₀ (by norm_num) (not_lt.mp hexponent)
  have hquotient : (m : ℚ) * 2 ^ e / 10 ^ (roundedDecimal m e 9).exponent ≤ 10 ^ 6 :=
    (div_le_self (by positivity) hunit).trans hsize
  linarith [hround.rounds.low]

/-- The sign and the size of a number with a value. -/
theorem HasValue.exists_reading {x : Float} {v : ℚ} (h : HasValue x v) (hv : v ≠ 0) :
  ∃ (m : Nat) (e : Int), Reading.ofFloat x = .finite (v < 0) m e ∧ 0 < m ∧ m * 2 ^ e = |v|
  := by
  obtain ⟨negative, m, e, hread, hvalue⟩ := h
  have hsize := abs_eq_of_size_eq (by positivity) hvalue
  have hnonneg : (0 : ℚ) ≤ m * 2 ^ e := by positivity
  have hm : 0 < m := pos_of_size_eq hvalue hv
  have hnegative : negative = decide (v < 0) := by
    have hpos : (0 : ℚ) < m * 2 ^ e := by positivity
    cases negative
    · rw [if_neg Bool.false_ne_true] at hvalue
      apply (decide_eq_false _).symm
      linarith
    · rw [if_pos rfl] at hvalue
      apply (decide_eq_true _).symm
      linarith
  use m, e, hnegative ▸ hread, hm, hsize.symm

/-- A number that is not near to zero and is not written as an integer is written with ten
significant digits if its size is between a ten-thousandth and a million, and otherwise with seven
and a power of ten, correctly rounded in both cases. -/
theorem decimalText_rounded {x : Float} {v : ℚ} (hx : HasValue x v) (hv : 1 / 10 ^ 10 ≤ |v|)
    (hwhole : whole? x = none) :
  (1 / 10 ^ 4 ≤ |v| ∧ |v| ≤ 10 ^ 6 → IsPlainDecimal 10 (v < 0) |v| (decimalText x)) ∧
  (|v| < 1 / 10 ^ 4 ∨ 10 ^ 6 < |v| → IsScientific 7 (v < 0) |v| (decimalText x))
  := by
  have hne : v ≠ 0 := by
    rintro rfl
    norm_num at hv
  obtain ⟨m, e, hread, hm, hsize⟩ := hx.exists_reading hne
  rw [decimalText_eq hread hx hv hwhole]
  constructor
  · intro hrange
    rw [if_pos hrange, ← hsize]
    apply isPlainDecimal_significantText hread hm
    apply exponent_roundedDecimal_neg hm (hsize ▸ hrange.2)
  · intro hrange
    rw [if_neg, ← hsize]
    · apply isScientific_scientificText _ e hm
    · rintro ⟨hlow, hhigh⟩
      rcases hrange with hlt | hlt
      · apply absurd hlt (not_lt.mpr hlow)
      · apply absurd hlt (not_lt.mpr hhigh)

/-- Numbers whose first rounding carries into a new digit. -/
theorem decimalText_rounded_carry :
  IsPlainDecimal 10 false (5629499533987940 / 2 ^ 49) (decimalText 9.9999999996) ∧
    IsScientific 7 true (5368708851564544 / 2 ^ 29) (decimalText (-9999999.5))
  := by
  have hten : HasValue 9.9999999996 (5629499533987940 / 2 ^ 49) := by
    refine ⟨false, 5629499533987940, -49, by decide +kernel, by norm_num⟩
  have hmillions : HasValue (-9999999.5) (-(5368708851564544 / 2 ^ 29)) := by
    refine ⟨true, 5368708851564544, -29, by decide +kernel, by norm_num⟩
  have hplain := (decimalText_rounded hten (by norm_num) (by decide +kernel)).1 (by norm_num)
  have hscientific :=
    (decimalText_rounded hmillions (by norm_num) (by decide +kernel)).2 (by norm_num)
  constructor
  · convert hplain using 1 <;> norm_num
  · convert hscientific using 1 <;> norm_num

-- Ten digits before and after the carry, and no digit more.
example :
    decimalText 9.9999999996 = "10.00000000" ∧ decimalText (-9999999.5) = "-1.000000e+07" := by
  decide +kernel

end Calculator
