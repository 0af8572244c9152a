import Calculator.Display.Recognition
import Calculator.Proofs.Number.Size

/-!
# How close a number is to its form

The value of the form of a number differs from the number by less than the tolerance, always in
degrees, and in radians but for two kinds of multiples of π (`isNear_of_recognise`,
`IsLooseMultiple`).

* A whole multiple is judged by the quotient of the number by π, whose distance from the multiple
  is smaller than that of the number by a factor of about π.
* A multiple with a denominator is compared before it is put in lowest terms.  A fraction keeps
  its value in lowest terms, since both quotients are the same rational number rounded once
  (`Form.value_fractionOf`).  A multiple of π is rounded twice, and it keeps its value when the
  common divisor is a power of two (`Form.value_piMultipleOf`).
-/

namespace Calculator

open Float.Model Float.Model.UnpackedFloat

namespace Form

/-! ### Lowest terms -/

/-- A fraction and the fraction that is left when a common divisor is taken out. -/
structure Reduces (n : Int) (d : Nat) (n' : Int) (d' : Nat) (divisor : Nat) : Prop where
  pos : 0 < divisor
  sign : n' < 0 ↔ n < 0
  numerator : n.natAbs = n'.natAbs * divisor
  denominator : d = d' * divisor

/-- Lowest terms are what is left when the greatest common divisor is taken out. -/
theorem reduces_lowest (n : Int) {d : Nat} (hd : 0 < d) :
  Reduces n d (lowest n d).1 (lowest n d).2 (n.natAbs.gcd d)
  := by
  have hleft : (n.natAbs.gcd d : Int) ∣ n := Int.natCast_dvd.mpr (Nat.gcd_dvd_left n.natAbs d)
  have hpos : 0 < n.natAbs.gcd d := Nat.gcd_pos_of_pos_right _ hd
  constructor
  · apply hpos
  · apply lt_iff_lt_of_le_iff_le
    apply Int.ediv_nonneg_iff_of_pos
    exact_mod_cast hpos
  · have habs := congrArg Int.natAbs (Int.ediv_mul_cancel hleft)
    rw [Int.natAbs_mul, Int.natAbs_natCast] at habs
    apply habs.symm
  · apply (Nat.div_mul_cancel (Nat.gcd_dvd_right n.natAbs d)).symm

namespace Reduces

variable {n n' : Int} {d d' divisor : Nat}

/-- The numerators vanish together. -/
theorem ne_zero (h : Reduces n d n' d' divisor) (hn : n ≠ 0) :
  n' ≠ 0
  := by
  rintro rfl
  apply hn
  apply Int.natAbs_eq_zero.mp
  rw [h.numerator, Int.natAbs_zero, Nat.zero_mul]

/-- The numerator that is left is no larger. -/
theorem natAbs_le (h : Reduces n d n' d' divisor) :
  n'.natAbs ≤ n.natAbs
  := by
  rw [h.numerator]
  apply Nat.le_mul_of_pos_right _ h.pos

/-- The denominator that is left is no larger. -/
theorem denominator_le (h : Reduces n d n' d' divisor) :
  d' ≤ d
  := by
  rw [h.denominator]
  apply Nat.le_mul_of_pos_right _ h.pos

/-- The denominator that is left is positive. -/
theorem denominator_pos (h : Reduces n d n' d' divisor) (hd : 0 < d) :
  0 < d'
  := by
  rw [h.denominator] at hd
  apply Nat.pos_of_mul_pos_right hd

end Reduces

end Form

/-! ### Values -/

/-- How the number for the integer zero is read. -/
theorem ofFloat_floatOfInt_zero :
  Reading.ofFloat (floatOfInt 0) = .finite false 0 (-1074)
  := by
  decide +kernel

/-- Zero divided by a positive number is zero. -/
theorem zero_div_of_hasSize {y : Float} {w : ℚ} (h : HasSize y false w) :
  floatOfInt 0 / y = floatOfInt 0
  := by
  obtain ⟨m, e, hread, hm, -⟩ := h
  change Float.ofModel (Float.Model.pack (UnpackedFloat.div Format.binary64
    (floatOfInt 0).toModel.unpack y.toModel.unpack)) = _
  rw [Reading.unpack_toModel ofFloat_floatOfInt_zero, Reading.unpack_toModel hread, unpackedOf,
    unpackedOf, dif_pos hm]
  rfl

/-- The size of π in double precision. -/
def piSize : ℚ :=
  7074237752028440 / 2 ^ 51

/-- The number π has its size. -/
theorem hasSize_pi :
  HasSize pi false piSize
  := by
  have hread : Reading.ofFloat pi = .finite false 7074237752028440 (-51) := by decide +kernel
  use 7074237752028440, -51, hread, by decide
  norm_num [piSize]

/-- The quotients by small denominators are in the range of the normal numbers. -/
theorem div_mem_range {v : ℚ} {d : Nat} (hlow : 1 ≤ v) (hhigh : v < 2 ^ 60) (hd : 0 < d)
    (hlt : d < 2 ^ 53) :
  2 ^ (-1022 : Int) ≤ v / d ∧ v / d < 2 ^ (1023 : Int)
  := by
  have hone : (1 : ℚ) ≤ d := by exact_mod_cast hd
  have hlarge : (d : ℚ) < 2 ^ 53 := by exact_mod_cast hlt
  constructor
  · calc
      (2 : ℚ) ^ (-1022 : Int) ≤ 2 ^ (-53 : Int) := zpow_le_zpow_right₀ (by norm_num) (by decide)
      _ = 1 / 2 ^ 53 := by norm_num
      _ ≤ v / d := by gcongr
  · calc
      v / d ≤ v := div_le_self (by linarith) hone
      _ < 2 ^ (60 : Int) := hhigh
      _ ≤ 2 ^ (1023 : Int) := zpow_le_zpow_right₀ (by norm_num) (by decide)

/-- The size of an integer other than zero, as a rational number. -/
theorem one_le_natAbs {n : Int} (hn : n ≠ 0) :
  (1 : ℚ) ≤ n.natAbs
  := by
  exact_mod_cast Int.natAbs_pos.mpr hn

/-- The multiples of π by integers of at most fifty-three bits are not too small or large. -/
theorem mul_piSize_mem_range {n : Int} (hn : n ≠ 0) (hlt : n.natAbs < 2 ^ 53) :
  1 ≤ n.natAbs * piSize ∧ n.natAbs * piSize < 2 ^ 56
  := by
  have hone : 1 ≤ piSize := by norm_num [piSize]
  have hfour : piSize < 4 := by norm_num [piSize]
  have hlarge : (n.natAbs : ℚ) < 2 ^ 53 := by exact_mod_cast hlt
  constructor
  · apply one_le_mul_of_one_le_of_one_le (one_le_natAbs hn) hone
  · calc
      n.natAbs * piSize ≤ 2 ^ 53 * 4 := by gcongr
      _ < 2 ^ 56 := by norm_num

/-- An integer times π is the exact product, rounded. -/
theorem rounds_mul_pi {n : Int} (hn : n ≠ 0) (hlt : n.natAbs < 2 ^ 53) :
  RoundsSize (floatOfInt n * pi) (decide (n < 0)) (n.natAbs * piSize)
  := by
  obtain ⟨hlow, hhigh⟩ := mul_piSize_mem_range hn hlt
  have hone : 1 ≤ piSize := by norm_num [piSize]
  apply (hasSize_floatOfInt hn hlt).mul hasSize_pi hone
  · calc
      (2 : ℚ) ^ (-1022 : Int) ≤ 2 ^ (0 : Int) := zpow_le_zpow_right₀ (by norm_num) (by decide)
      _ ≤ n.natAbs * piSize := hlow
  · calc
      n.natAbs * piSize < 2 ^ (56 : Int) := hhigh
      _ ≤ 2 ^ (1023 : Int) := zpow_le_zpow_right₀ (by norm_num) (by decide)

namespace Form

/-- The value of a fraction is the quotient, rounded. -/
theorem rounds_fraction {n : Int} {d : Nat} (hn : n ≠ 0) (hlt : n.natAbs < 2 ^ 53) (hd : 0 < d)
    (hdlt : d < 2 ^ 53) :
  RoundsSize (fraction n d).value (decide (n < 0)) (n.natAbs / d)
  := by
  have hlarge : (n.natAbs : ℚ) < 2 ^ 60 := by
    exact_mod_cast Nat.lt_trans hlt (by decide)
  obtain ⟨hlow, hhigh⟩ := div_mem_range (one_le_natAbs hn) hlarge hd hdlt
  apply (hasSize_floatOfInt hn hlt).div (hasSize_floatOfNat hd hdlt) hlow hhigh

namespace Reduces

variable {n n' : Int} {d d' divisor k : Nat}

/-- A fraction keeps its value when a common divisor is taken out. -/
theorem value_fraction (h : Reduces n d n' d' divisor) (hlt : n.natAbs < 2 ^ 53) (hd : 0 < d)
    (hdlt : d < 2 ^ 53) (hn : n ≠ 0) :
  (fraction n' d').value = (fraction n d).value
  := by
  have hquotient : (n'.natAbs : ℚ) / d' = n.natAbs / d := by
    rw [h.numerator, h.denominator, Nat.cast_mul, Nat.cast_mul, mul_div_mul_right]
    exact_mod_cast Nat.ne_of_gt h.pos
  have hrounds := rounds_fraction (h.ne_zero hn) (Nat.lt_of_le_of_lt h.natAbs_le hlt)
    (h.denominator_pos hd) (Nat.lt_of_le_of_lt h.denominator_le hdlt)
  rw [decide_eq_decide.mpr h.sign, hquotient] at hrounds
  apply hrounds.eq (rounds_fraction hn hlt hd hdlt)

/-- A multiple of π keeps its value when a power of two is taken out. -/
theorem value_piMultiple (h : Reduces n d n' d' (2 ^ k)) (hlt : n.natAbs < 2 ^ 53) (hd : 0 < d)
    (hdlt : d < 2 ^ 53) (hn : n ≠ 0) :
  (piMultiple n' d').value = (piMultiple n d).value
  := by
  have hlt' := Nat.lt_of_le_of_lt h.natAbs_le hlt
  have hd' := h.denominator_pos hd
  have hdlt' := Nat.lt_of_le_of_lt h.denominator_le hdlt
  have hproduct : (n.natAbs : ℚ) * piSize = n'.natAbs * piSize * 2 ^ k := by
    rw [h.numerator]
    push_cast
    ring
  have hquotient : ∀ w : ℚ, w * 2 ^ k / d = w / d' := by
    intro w
    rw [h.denominator, Nat.cast_mul, Nat.cast_pow, Nat.cast_ofNat, mul_div_mul_right]
    positivity
  have hrange := (mul_piSize_mem_range hn hlt).2
  obtain ⟨hlow', hhigh'⟩ := mul_piSize_mem_range (h.ne_zero hn) hlt'
  have hrounds' := rounds_mul_pi (h.ne_zero hn) hlt'
  have hrounds := rounds_mul_pi hn hlt
  rw [decide_eq_decide.mpr h.sign] at hrounds'
  rw [hproduct] at hrange hrounds
  have hlarge : (2 : ℚ) ^ 56 < 2 ^ (1022 : Int) := by
    rw [← zpow_natCast, zpow_two_lt_iff]
    decide
  obtain ⟨w, hlow, hhigh, hsize', hsize⟩ := hrounds'.scale hlow' (hrange.trans hlarge) hrounds
  obtain ⟨hleast, hmost⟩ := div_mem_range hlow (by linarith) hd' hdlt'
  have hvalue' := hsize'.div (hasSize_floatOfNat hd' hdlt') hleast hmost
  have hvalue := hsize.div (hasSize_floatOfNat hd hdlt)
  rw [hquotient] at hvalue
  apply hvalue'.eq (hvalue hleast hmost)

end Reduces

/-- A whole multiple of π is in lowest terms. -/
theorem piMultipleOf_one (n : Int) :
  piMultipleOf n 1 = .piMultiple n 1
  := by
  simp [piMultipleOf, lowest]

/-- Zero in lowest terms. -/
theorem lowest_zero {d : Nat} (hd : 0 < d) :
  lowest 0 d = (0, 1)
  := by
  simp [lowest, Nat.div_self hd]

/-- A fraction has the value of the fraction in lowest terms. -/
theorem value_fractionOf {n : Int} {d : Nat} (hlt : n.natAbs < 2 ^ 53) (hd : 0 < d)
    (hdlt : d < 2 ^ 53) :
  (fractionOf n d).value = (fraction n d).value
  := by
  rcases eq_or_ne n 0 with rfl | hn
  · rw [fractionOf, lowest_zero hd]
    apply (zero_div_of_hasSize (hasSize_floatOfNat Nat.one_pos (by decide))).trans
    apply (zero_div_of_hasSize (hasSize_floatOfNat hd hdlt)).symm
  · apply (reduces_lowest n hd).value_fraction hlt hd hdlt hn

/-- A multiple of π has the value of the multiple in lowest terms, if the common divisor is a
power of two. -/
theorem value_piMultipleOf {n : Int} {d k : Nat} (hdivisor : n.natAbs.gcd d = 2 ^ k)
    (hlt : n.natAbs < 2 ^ 53) (hd : 0 < d) (hdlt : d < 2 ^ 53) :
  (piMultipleOf n d).value = (piMultiple n d).value
  := by
  rcases eq_or_ne n 0 with rfl | hn
  · have hzero : floatOfInt 0 * pi = floatOfInt 0 := by decide +kernel
    rw [piMultipleOf, lowest_zero hd]
    simp only [value, hzero]
    apply (zero_div_of_hasSize (hasSize_floatOfNat Nat.one_pos (by decide))).trans
    apply (zero_div_of_hasSize (hasSize_floatOfNat hd hdlt)).symm
  · have hreduces := reduces_lowest n hd
    rw [hdivisor] at hreduces
    apply hreduces.value_piMultiple hlt hd hdlt hn

end Form

/-! ### Whole numbers -/

/-- An integer that is recognised is below a bound in size. -/
theorem natAbs_le_of_boundedInteger? {x : Float} {n : Int} (h : boundedInteger? x = some n) :
  whole? x = some n ∧ n.natAbs ≤ 2147483647
  := by
  simp only [boundedInteger?, Option.ite_none_right_eq_some] at h
  obtain ⟨hle, hwhole⟩ := h
  obtain ⟨negative, m, e, hread, hv, -⟩ := exists_of_whole? hwhole
  have hbound : Reading.ofFloat 2147483647.0 = .finite false 9007199250546688 (-22) := by
    decide +kernel
  have hvalue := value_le_of_le (Reading.ofFloat_abs hread) hbound hle
  rw [hv] at hvalue
  use hwhole
  have hcast : (n.natAbs : ℚ) ≤ (2147483647 : Nat) := by
    apply hvalue.trans
    norm_num
  exact_mod_cast hcast

/-- The sign of a zero that is subtracted does not matter for the distance. -/
theorem abs_sub_zero (u : UnpackedFloat) (s : Sign) :
  Float.Model.abs (pack (u.sub Format.binary64 (.zero s)))
    = Float.Model.abs (pack (u.sub Format.binary64 (.zero .positive)))
  := by
  cases u with
  | zero s' => cases s <;> cases s' <;> decide +kernel
  | notANumber | infinity _ | finite _ _ _ _ => rfl

/-- A number that is whole is as close to a number as the integer is. -/
theorem isNear_of_whole? {x y : Float} {n : Int} (h : whole? y = some n) (hlt : n.natAbs < 2 ^ 53) :
  isNear x y = isNear x (floatOfInt n)
  := by
  rcases eq_or_ne n 0 with rfl | hn
  · obtain ⟨negative, m, e, hread, hv, -⟩ := exists_of_whole? h
    have hm : m = 0 := by
      rw [Int.natAbs_zero, Nat.cast_zero, mul_eq_zero] at hv
      exact_mod_cast hv.resolve_right (by positivity)
    have hdistance : (x - y).abs = (x - floatOfInt 0).abs := by
      change Float.ofModel (Float.Model.abs (pack (x.toModel.unpack.sub Format.binary64
        y.toModel.unpack))) = .ofModel (Float.Model.abs (pack (x.toModel.unpack.sub Format.binary64
        (floatOfInt 0).toModel.unpack)))
      rw [Reading.unpack_toModel hread, Reading.unpack_toModel ofFloat_floatOfInt_zero, hm]
      apply congrArg Float.ofModel (abs_sub_zero _ _)
    rw [isNear, isNear, hdistance]
  · rw [eq_floatOfInt_of_whole? h hn hlt]

/-! ### Recognition -/

/-- A form from a table is close to the number. -/
theorem isNear_of_closeForm? {forms : List Form} {x : Float} {form : Form}
    (h : closeForm? forms x = some form) :
  isNear x form.value = true
  := by
  apply List.find?_some h

/-- The multiples of π that are not compared with the number as they are shown: a whole one is
compared with the quotient of the number by π, and one with a denominator before a common divisor
that is no power of two is taken out. -/
inductive IsLooseMultiple (x : Float) : Form → Prop where
  | whole {n : Int} : isNear (x / pi) (floatOfInt n) = true → IsLooseMultiple x (.piMultiple n 1)
  | quotient {n : Int} {d : Nat} : d ∈ List.range' 2 11 →
      isNear x (Form.piMultiple n d).value = true → (∀ k : Nat, n.natAbs.gcd d ≠ 2 ^ k) →
      IsLooseMultiple x (.piMultipleOf n d)

/-- What is recognised as a whole multiple of π: the quotient of the number by π is close to an
integer of limited size. -/
theorem exists_of_wholePiMultiple? {x : Float} {form : Form} (h : wholePiMultiple? x = some form) :
  ∃ n : Int, n.natAbs ≤ 2147483647 ∧ isNear (x / pi) (floatOfInt n) = true ∧
    form = .piMultiple n 1
  := by
  simp only [wholePiMultiple?, Option.ite_none_right_eq_some, Option.map_eq_some_iff] at h
  obtain ⟨hnear, n, hn, rfl⟩ := h
  obtain ⟨hwhole, hbound⟩ := natAbs_le_of_boundedInteger? hn
  rw [isNear_of_whole? hwhole (by omega)] at hnear
  use n, hbound, hnear, Form.piMultipleOf_one n

/-- What is recognised as a whole multiple of π. -/
theorem isLooseMultiple_of_wholePiMultiple? {x : Float} {form : Form}
    (h : wholePiMultiple? x = some form) :
  IsLooseMultiple x form
  := by
  obtain ⟨n, -, hnear, rfl⟩ := exists_of_wholePiMultiple? h
  apply IsLooseMultiple.whole hnear

/-- A numerator is below a bound in size and makes a form close to the number. -/
theorem isNear_of_nearestNumerator? {form : Int → Nat → Form} {x scaled : Float} {d : Nat}
    {n : Int} (h : nearestNumerator? form x scaled d = some n) :
  n.natAbs < 2 ^ 53 ∧ isNear x (form n d).value = true
  := by
  obtain ⟨hn, hnear⟩ := Option.filter_eq_some_iff.mp h
  have hbound := (natAbs_le_of_boundedInteger? hn).2
  use by omega, hnear

/-- A fraction that is recognised is close to the number, also in lowest terms. -/
theorem isNear_of_fraction? {x : Float} {form : Form} (h : fraction? x = some form) :
  isNear x form.value = true
  := by
  obtain ⟨d, hd, hform⟩ := List.exists_of_findSome?_eq_some h
  obtain ⟨n, hn, rfl⟩ := Option.map_eq_some_iff.mp hform
  obtain ⟨hlt, hnear⟩ := isNear_of_nearestNumerator? hn
  have hrange := List.mem_range'_1.mp hd
  rw [Form.value_fractionOf hlt (by omega) (by omega)]
  apply hnear

/-- A whole number of degrees that is recognised is close to the number. -/
theorem isNear_of_wholeDegrees? {x : Float} {form : Form} (h : wholeDegrees? x = some form) :
  isNear x form.value = true
  := by
  obtain ⟨n, hn, rfl⟩ := Option.map_eq_some_iff.mp h
  apply (Option.filter_eq_some_iff.mp hn).2

/-- What is recognised as a multiple of π with a denominator. -/
theorem isNear_or_of_piFraction? {x : Float} {form : Form} (h : piFraction? x = some form) :
  isNear x form.value = true ∨ IsLooseMultiple x form
  := by
  obtain ⟨d, hd, hform⟩ := List.exists_of_findSome?_eq_some h
  obtain ⟨n, hn, rfl⟩ := Option.map_eq_some_iff.mp hform
  obtain ⟨hlt, hnear⟩ := isNear_of_nearestNumerator? hn
  have hrange := List.mem_range'_1.mp hd
  by_cases hdivisor : ∃ k : Nat, n.natAbs.gcd d = 2 ^ k
  · obtain ⟨k, hk⟩ := hdivisor
    left
    rw [Form.value_piMultipleOf hk hlt (by omega) (by omega)]
    apply hnear
  · right
    apply IsLooseMultiple.quotient hd hnear
    intro k hk
    apply hdivisor ⟨k, hk⟩

/-- The value of the form of a number differs from the number by less than the tolerance, unless
it is a multiple of π in radians that is not compared as it is shown. -/
theorem isNear_of_recognise {mode : AngleMode} {x : Float} {form : Form}
    (h : recognise mode x = some form) :
  isNear x form.value = true ∨ mode = .radians ∧ IsLooseMultiple x form
  := by
  simp only [recognise, Option.orElse_eq_some] at h
  rcases h with hknown | ⟨-, hangle | ⟨-, hfraction | ⟨-, hroot⟩⟩⟩
  · left
    apply isNear_of_closeForm? hknown
  · simp only [angle?, Option.orElse_eq_some] at hangle
    rcases hangle with hcommon | ⟨-, hangle⟩
    · left
      apply isNear_of_closeForm? hcommon
    · cases mode with
      | radians =>
        simp only [Option.orElse_eq_some] at hangle
        rcases hangle with hwhole | ⟨-, hmultiple⟩
        · right
          use rfl, isLooseMultiple_of_wholePiMultiple? hwhole
        · rcases isNear_or_of_piFraction? hmultiple with hnear | hloose
          · left
            apply hnear
          · right
            use rfl, hloose
      | degrees =>
        left
        apply isNear_of_wholeDegrees? hangle
  · left
    apply isNear_of_fraction? hfraction
  · left
    apply isNear_of_closeForm? hroot

/-- A number next to four times π that differs from it by more than the tolerance. -/
theorem isNear_of_recognise_four_pi :
  recognise .radians 12.566370614559172 = some (.piMultiple 4 1) ∧
    isNear 12.566370614559172 (Form.piMultiple 4 1).value = false ∧
    IsLooseMultiple 12.566370614559172 (.piMultiple 4 1)
  := by
  have hrecognise : recognise .radians 12.566370614559172 = some (.piMultiple 4 1) := by
    decide +kernel
  have hfar : isNear 12.566370614559172 (Form.piMultiple 4 1).value = false := by decide +kernel
  use hrecognise, hfar
  rcases isNear_of_recognise hrecognise with hnear | ⟨-, hloose⟩
  · rw [hfar] at hnear
    cases hnear
  · apply hloose

-- The numerator 2041647 and the denominator 6 are compared before three is taken out of them.
example :
    recognise .radians 1069003.86940394 = some (.piMultiple 680549 2) ∧
      isNear 1069003.86940394 (Form.piMultiple 680549 2).value = false := by
  decide +kernel

end Calculator
