import Calculator.Proofs.Display.Decimals
import Calculator.Proofs.Display.WholeDegrees

/-!
# The display of integers

A number of at least one in size that is shown as an integer, with or without a degree sign, differs
from this integer by less than `10 ^ (-10)`, with one exception: `2 ^ 63` is shown as `2 ^ 63 - 1`
(`display_integer`).

* `SpellsInteger text n`: a text is digits with an optional sign in front and perhaps a degree sign
  after them.  Such a text has no other characters (`SpellsInteger.notMem`), so that no decimal with
  a point spells an integer, and no form but an integer, a whole number of degrees and zero.
* The numbers from one on are multiples of `2 ^ (-52)`.  The tolerance is no such multiple, and the
  last one below it is less than `10 ^ (-10)`; so a number that is near to an integer is closer than
  that, although the tolerance is a little larger (`abs_sub_lt_of_isNear_integer`).
-/

namespace Calculator

/-! ### Texts that spell integers -/

/-- A text that is an integer with an optional sign, and perhaps with a degree sign after it. -/
def SpellsInteger (text : String) (n : Int) : Prop :=
  ∃ sign ds unit : List Char, text.toList = sign ++ (ds ++ unit) ∧
    sign ∈ [[], ['-'], ['+']] ∧ ds ≠ [] ∧ (∀ d ∈ ds, d.isDigit = true) ∧ unit ∈ [[], ['°']] ∧
    n = if sign = ['-'] then -(digitsValue ds : Int) else digitsValue ds

/-- Whether a character can be in a text that spells an integer. -/
def isIntegerLetter (c : Char) : Bool :=
  c.isDigit || c ∈ ['-', '+', '°']

namespace SpellsInteger

variable {text : String} {n : Int}

/-- There are no other characters in a text that spells an integer. -/
theorem all_isIntegerLetter (h : SpellsInteger text n) :
  text.toList.all isIntegerLetter = true
  := by
  obtain ⟨sign, ds, unit, htext, hsign, -, hds, hunit, -⟩ := h
  have hsigns : ∀ sign ∈ [[], ['-'], ['+']], sign.all isIntegerLetter = true := by decide
  have hunits : ∀ unit ∈ [[], ['°']], unit.all isIntegerLetter = true := by decide
  have hdigits : ds.all isIntegerLetter = true := by
    apply List.all_eq_true.mpr
    intro d hd
    rw [isIntegerLetter, hds d hd, Bool.true_or]
  rw [htext, List.all_append, List.all_append, hsigns sign hsign, hdigits, hunits unit hunit]
  rfl

/-- Any other character is not in a text that spells an integer. -/
theorem notMem (h : SpellsInteger text n) {c : Char} (hc : isIntegerLetter c = false) :
  c ∉ text.toList
  := by
  intro hmem
  rw [List.all_eq_true.mp h.all_isIntegerLetter c hmem] at hc
  cases hc

/-- The integer is determined by the digits of the text and whether there is a minus sign. -/
theorem eq_of_digits (h : SpellsInteger text n) :
  n = if '-' ∈ text.toList then -(digitsValue (text.toList.filter Char.isDigit) : Int)
    else digitsValue (text.toList.filter Char.isDigit)
  := by
  obtain ⟨sign, ds, unit, htext, hsign, -, hds, hunit, rfl⟩ := h
  have hminus : '-' ∉ ds := fun hmem => absurd (hds _ hmem) (by decide)
  have hfilter : ds.filter Char.isDigit = ds := List.filter_eq_self.mpr hds
  simp only [List.mem_cons, List.not_mem_nil, or_false] at hsign hunit
  rw [htext]
  rcases hsign with rfl | rfl | rfl <;> rcases hunit with rfl | rfl <;>
    simp [hminus, hfilter]

end SpellsInteger

/-- The text of a natural number are its digits. -/
theorem toList_toString_nat (n : Nat) :
  (toString n).toList = digits n
  := by
  rw [Nat.toString_eq_repr, Nat.toList_repr]
  rfl

/-- The text of an integer spells no other integer, also with a degree sign after it. -/
theorem SpellsInteger.eq_of_toString {k n : Int} {unit : String} (hunit : unit = "" ∨ unit = "°")
    (h : SpellsInteger (toString k ++ unit) n) :
  n = k
  := by
  have hnone : '-' ∉ unit.toList ∧ unit.toList.filter Char.isDigit = [] := by
    rcases hunit with rfl | rfl <;> decide
  have hdigits : ∀ m : Nat, (digits m).filter Char.isDigit = digits m := by
    intro m
    apply List.filter_eq_self.mpr
    intro d hd
    apply isDigit_of_mem_digits hd
  have hminus : ∀ m : Nat, '-' ∉ digits m :=
    fun m hmem => absurd (isDigit_of_mem_digits hmem) (by decide)
  rw [h.eq_of_digits, String.toList_append]
  cases k with
  | ofNat m =>
    have htext : (toString (Int.ofNat m)).toList = digits m := toList_toString_nat m
    rw [htext, if_neg (by simp [hnone.1, hminus]), List.filter_append, hdigits, hnone.2,
      List.append_nil, digitsValue_digits]
    rfl
  | negSucc m =>
    have htext : (toString (Int.negSucc m)).toList = '-' :: digits (m + 1) := by
      change ("-" ++ toString (m + 1)).toList = _
      rw [String.toList_append, toList_toString_nat]
      rfl
    rw [htext, if_pos (by simp), List.filter_append, List.filter_cons_of_neg (by decide), hdigits,
      hnone.2, List.append_nil, digitsValue_digits]
    rfl

/-! ### Numbers near to integers -/

/-- The values from one on are multiples of `2 ^ (-52)`. -/
theorem HasValue.exists_mul_two_pow {x : Float} {v : ℚ} (h : HasValue x v) (hv : 1 ≤ |v|) :
  ∃ k : Int, v * 2 ^ 52 = k
  := by
  obtain ⟨m, e, hread, hm, hsize⟩ := h.exists_reading (abs_pos.mp (by linarith))
  have hbits : (m : ℚ) < 2 ^ 53 := by
    exact_mod_cast (Reading.isCanonical_of_ofFloat hread).lt
  have hlow : (2 : ℚ) ^ (0 : Int) < 2 ^ (e + (53 : Nat)) := by
    rw [zpow_two_add, zpow_zero]
    calc
      1 ≤ (m : ℚ) * 2 ^ e := by rw [hsize]; apply hv
      _ < 2 ^ 53 * 2 ^ e := by gcongr
  have hexponent := zpow_two_lt_iff.mp hlow
  obtain ⟨j, hj⟩ := Int.eq_ofNat_of_zero_le (by omega : 0 ≤ e + (52 : Nat))
  have hscaled : |v| * 2 ^ 52 = (m * 2 ^ j : Nat) := by
    have hpower := zpow_two_add e 52
    rw [hj, zpow_natCast] at hpower
    rw [← hsize, Nat.cast_mul, Nat.cast_pow, Nat.cast_ofNat, hpower]
    ring
  rcases abs_choice v with habs | habs
  · use (m * 2 ^ j : Nat)
    rw [← habs, hscaled, Int.cast_natCast]
  · use -(m * 2 ^ j : Nat)
    rw [Int.cast_neg, Int.cast_natCast, ← hscaled, habs]
    ring

/-- A number of at least one in size that is near to an integer differs from it by less than
`10 ^ (-10)`. -/
theorem abs_sub_lt_of_isNear_integer {x : Float} {v : ℚ} {n : Int} (hx : HasValue x v)
    (hv : 1 ≤ |v|) (hn : n.natAbs ≤ 2147483647) (h : isNear x (floatOfInt n) = true) :
  |n - v| < 1 / 10 ^ 10
  := by
  have hsize := abs_cast_le hn
  have hnear := abs_sub_lt_toleranceSize_of_isNear hx (hasValue_floatOfInt hn) (by linarith) h
  obtain ⟨k, hk⟩ := hx.exists_mul_two_pow hv
  have hdistance : |(n : ℚ) - v| * 2 ^ 52 = (|n * 2 ^ 52 - k| : Int) := by
    rw [Int.cast_abs, Int.cast_sub, ← hk, Int.cast_mul, Int.cast_pow, Int.cast_ofNat, ← sub_mul,
      abs_mul, abs_of_pos (by norm_num : (0 : ℚ) < 2 ^ 52)]
  -- The tolerance is between these two multiples of the unit.
  have hgrid : |n * 2 ^ 52 - k| < 450360 := by
    have hcast : ((|n * 2 ^ 52 - k| : Int) : ℚ) < (450360 : Int) := by
      rw [← hdistance, abs_sub_comm]
      norm_num [toleranceSize] at hnear ⊢
      linarith
    exact_mod_cast hcast
  have hcast : |(n : ℚ) - v| * 2 ^ 52 ≤ (450359 : Int) := by
    rw [hdistance]
    exact_mod_cast Int.le_of_lt_add_one hgrid
  norm_num at hcast ⊢
  linarith

/-! ### Forms -/

/-- The constants that are tried first are the integers among them, or have a text with another
character. -/
theorem isOwnConstant_or_all_isIntegerLetter_eq_false :
  ∀ form ∈ knownForms, (∃ n ∈ ownConstants, form = .fraction n 1) ∨
    form.render.toList.all isIntegerLetter = false
  := by
  decide +kernel

/-- A number that is recognised as a form whose text spells an integer is near to this integer. -/
theorem isNear_of_spellsInteger {x : Float} {v : ℚ} {mode : AngleMode} {form : Form} {n : Int}
    (h : RecognisedAs x mode form) (hx : HasValue x v) (hv : 1 ≤ |v|)
    (hn : SpellsInteger form.render n) :
  n.natAbs ≤ 2147483647 ∧ isNear x (floatOfInt n) = true
  := by
  cases h with
  | known hform hnear =>
    rcases isOwnConstant_or_all_isIntegerLetter_eq_false form hform with ⟨k, hk, rfl⟩ | hletter
    · obtain rfl := hn.eq_of_toString (.inl rfl)
      have hbound := natAbs_le_of_mem_ownConstants n hk
      use hbound, Form.value_fraction_one hbound ▸ hnear
    · cases hletter.symm.trans hn.all_isIntegerLetter
  | @piMultiple p q hpos hle hcoprime hwithin =>
    by_cases hzero : p = 0
    · -- A number of at least one in size is not nearly zero.
      obtain ⟨w, hw, hsize⟩ := hwithin
      obtain rfl := hx.unique hw
      rw [hzero] at hsize
      norm_num at hsize
      linarith
    · cases hn.notMem (by decide) (Form.pi_mem_render hzero q)
  | @degrees k hnone hk hnear =>
    obtain rfl := hn.eq_of_toString (.inr rfl)
    use hk, hnear
  | @fraction _ p q hsimple hnear =>
    by_cases hone : q = 1
    · subst hone
      obtain rfl := hn.eq_of_toString (.inl rfl)
      use hsimple.bound, Form.value_fraction_one hsimple.bound ▸ hnear
    · cases hn.notMem (by decide) (Form.slash_mem_render p hone)
  | root => cases hn.notMem (by decide) (Form.radical_mem_render _ _)

/-! ### Decimals -/

/-- A number that is not an integer of limited size is written with a point, unless it is near to
zero. -/
theorem point_mem_decimalText {x : Float} {v : ℚ} (hx : HasValue x v) (hv : 1 / 10 ^ 10 ≤ |v|)
    (hwhole : whole? x = none) :
  '.' ∈ (decimalText x).toList
  := by
  have hne : v ≠ 0 := by
    rintro rfl
    norm_num at hv
  obtain ⟨m, e, hread, hm, hsize⟩ := hx.exists_reading hne
  rw [decimalText_eq hread hx hv hwhole]
  split
  · rename_i hrange
    have hexponent := exponent_roundedDecimal_neg hm (hsize ▸ hrange.2)
    obtain ⟨whole, decimals, htext, -⟩ := isPlainDecimal_significantText hread hm hexponent
    rw [htext]
    simp
  · obtain ⟨leading, decimals, powerDigits, power, htext, -⟩ :=
      isScientific_scientificText (v < 0) e hm
    rw [htext]
    simp

/-- A number of at least one in size that is an integer of limited size is written as this integer,
or as the largest one that is written in full. -/
theorem decimalText_of_whole? {x : Float} {k : Int} (hk : 1 ≤ |(k : ℚ)|)
    (hwhole : whole? x = some k) :
  decimalText x = toString (min k largestInteger)
  := by
  obtain ⟨hx, -⟩ := whole?_eq_some_iff.mp hwhole
  obtain ⟨negative, m, e, hread, -⟩ := id hx
  have hzero : ¬x.abs < tolerance := by
    rw [hx.abs_lt_tolerance_iff, not_lt]
    apply le_trans (by norm_num) hk
  rw [decimalText, hread]
  simp only [if_neg hzero, hwhole]

/-- A decimal that spells an integer is that of an integer, which it spells unless it is `2 ^ 63`. -/
theorem eq_of_spellsInteger_decimalText {x : Float} {v : ℚ} {n : Int} (hx : HasValue x v)
    (hv : 1 ≤ |v|) (hn : SpellsInteger (decimalText x) n) :
  ∃ k : Int, v = k ∧ k ≤ 2 ^ 63 ∧ n = min k (2 ^ 63 - 1)
  := by
  cases hwhole : whole? x with
  | none =>
    cases hn.notMem (by decide) (point_mem_decimalText hx (le_trans (by norm_num) hv) hwhole)
  | some k =>
    obtain ⟨hvalue, hle⟩ := whole?_eq_some_iff.mp hwhole
    obtain rfl := hx.unique hvalue
    have htext := decimalText_of_whole? hv hwhole
    rw [← String.append_empty (s := toString _)] at htext
    use k, rfl
    constructor
    · have hlimit : wholeLimit = 2 ^ 63 := rfl
      omega
    · apply (htext ▸ hn).eq_of_toString (.inl rfl)

/-- What is not a finite number is written with letters. -/
theorem exists_hasValue_or_all_isIntegerLetter_eq_false (x : Float) :
  (∃ v : ℚ, HasValue x v) ∨ (decimalText x).toList.all isIntegerLetter = false
  := by
  cases hread : Reading.ofFloat x with
  | nan =>
    right
    rw [decimalText, hread]
    change "NaN".toList.all isIntegerLetter = false
    decide
  | infinite negative =>
    right
    rw [decimalText, hread]
    change (signText negative ++ "Infinity").toList.all isIntegerLetter = false
    cases negative <;> decide
  | finite negative m e =>
    left
    have hx : HasMagnitude x negative (m * 2 ^ e) := ⟨m, e, hread, rfl⟩
    exact ⟨_, hx.hasValue⟩

/-- What is shown as an integer is a finite number. -/
theorem exists_hasValue_of_spellsInteger {x : Float} {mode : AngleMode} {n : Int}
    (hn : SpellsInteger (display mode x) n) :
  ∃ v : ℚ, HasValue x v
  := by
  rw [display] at hn
  cases hform : recognise mode x with
  | some form => apply (recognisedAs_of_recognise hform).exists_hasValue
  | none =>
    rw [hform] at hn
    rcases exists_hasValue_or_all_isIntegerLetter_eq_false x with hx | hletter
    · apply hx
    · cases hletter.symm.trans hn.all_isIntegerLetter

/-! ### The display -/

/-- The exact value of one. -/
theorem hasValue_one :
  HasValue 1.0 1
  := by
  refine ⟨false, 4503599627370496, -52, by decide +kernel, ?_⟩
  norm_num

/-- A number of at least one in size that is shown as an integer differs from it by less than
`10 ^ (-10)`, unless it is `2 ^ 63`, which is shown as the integer before it. -/
theorem display_integer {mode : AngleMode} {x : Float} {n : Int} (hx : 1.0 ≤ x.abs)
    (hn : SpellsInteger (display mode x) n) :
  ∃ v : ℚ, HasValue x v ∧ (v ≠ 2 ^ 63 → |n - v| < 1 / 10 ^ 10) ∧
    (v = 2 ^ 63 → n = 2 ^ 63 - 1)
  := by
  obtain ⟨v, hvalue⟩ := exists_hasValue_of_spellsInteger hn
  have hv : 1 ≤ |v| := (hasValue_one.le_iff hvalue.hasValue_abs).mp hx
  refine ⟨v, hvalue, ?_⟩
  rw [display] at hn
  cases hform : recognise mode x with
  | some form =>
    rw [hform] at hn
    obtain ⟨hbound, hnear⟩ :=
      isNear_of_spellsInteger (recognisedAs_of_recognise hform) hvalue hv hn
    have hdistance := abs_sub_lt_of_isNear_integer hvalue hv hbound hnear
    use fun _ => hdistance
    rintro rfl
    -- Numbers of this size are near to no integer of limited size.
    have hsize := abs_cast_le hbound
    rw [abs_lt] at hdistance
    rw [abs_le] at hsize
    norm_num at hdistance hsize
    linarith
  | none =>
    rw [hform] at hn
    obtain ⟨k, rfl, hle, rfl⟩ := eq_of_spellsInteger_decimalText hvalue hv hn
    constructor
    · intro hne
      have hlt : k ≠ 2 ^ 63 := by exact_mod_cast hne
      rw [min_eq_left (by omega), sub_self, abs_zero]
      norm_num
    · intro heq
      have hlarge : k = 2 ^ 63 := by exact_mod_cast heq
      rw [hlarge]
      rfl

/-- The one integer that is not shown as itself. -/
theorem display_integer_two_pow :
  1.0 ≤ (9223372036854775808.0 : Float).abs ∧
    SpellsInteger (display .degrees 9223372036854775808.0) (2 ^ 63 - 1) ∧
    HasValue 9223372036854775808.0 (2 ^ 63) ∧
    ∃ v : ℚ, HasValue 9223372036854775808.0 v ∧
      (v ≠ 2 ^ 63 → |((2 ^ 63 - 1 : Int) : ℚ) - v| < 1 / 10 ^ 10) ∧
      (v = 2 ^ 63 → (2 ^ 63 - 1 : Int) = 2 ^ 63 - 1)
  := by
  have hone : 1.0 ≤ (9223372036854775808.0 : Float).abs := by decide +kernel
  have hspells : SpellsInteger (display .degrees 9223372036854775808.0) (2 ^ 63 - 1) := by
    refine ⟨[], digits (2 ^ 63 - 1), [], by decide +kernel, by decide, by decide, ?_, by decide, ?_⟩
    · intro d hd
      apply isDigit_of_mem_digits hd
    · rw [if_neg (by decide), digitsValue_digits]
      rfl
  have hvalue : HasValue 9223372036854775808.0 (2 ^ 63) := by
    refine ⟨false, 4503599627370496, 11, by decide +kernel, ?_⟩
    norm_num
  use hone, hspells, hvalue
  apply display_integer hone hspells

-- The number before it is shown as itself.
example : display .degrees 9223372036854774784.0 = "9223372036854774784" := by
  decide +kernel

end Calculator
