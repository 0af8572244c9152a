import Calculator.Proofs.Display.Angles
import Calculator.Proofs.Display.Fractions

/-!
# The forms of a number

`RecognisedAs mode x form` lists what a number can be recognised as, and what is then known about
the number and the form.  Whatever is recognised is of this kind (`recognisedAs_of_recognise`), so
that a property of the display has one case for each kind of form.

A number that is recognised as a multiple of π nearly has its value, also where only its quotient by
π was compared (`isWithin_of_isNear_div_pi`).
-/

namespace Calculator

open Float.Model Float.Model.UnpackedFloat

/-! ### Numbers that are nearly a multiple of π -/

/-- The quotient by π of what is not finite is not finite. -/
theorem isFinite_of_div_pi {x : Float} (h : (x / pi).isFinite = true) :
  x.isFinite = true
  := by
  have hread : Reading.ofFloat pi = .finite false 7074237752028440 (-51) := by decide +kernel
  by_contra hinfinite
  have hquotient : Float.isFinite (.ofModel (pack (UnpackedFloat.div Format.binary64
      x.toModel.unpack pi.toModel.unpack))) = true := h
  have hunpack : ¬x.toModel.unpack.isFinite = true := hinfinite
  rw [Reading.unpack_toModel hread] at hquotient
  revert hquotient
  cases hx : x.toModel.unpack with
  | zero | finite =>
    rw [hx] at hunpack
    cases hunpack rfl
  | notANumber => decide +kernel
  | infinity s => cases s <;> decide +kernel

/-- A number whose quotient by π is near to an integer of limited size nearly is this multiple of
π. -/
theorem isWithin_of_isNear_div_pi {x : Float} {n : Int} (hn : n.natAbs ≤ 2147483647)
    (h : isNear (x / pi) (floatOfInt n) = true) :
  IsWithin (1 / 2 ^ 15) x (n * piSize)
  := by
  have hone : 1 ≤ piSize := by norm_num [piSize]
  have hfour : piSize ≤ 4 := by norm_num [piSize]
  obtain ⟨v, hx⟩ := exists_hasValue (isFinite_of_div_pi (isFinite_of_isNear h))
  have hlimit : |v / piSize| < overflowLimit := by
    have hlargest := hx.abs_le
    have hunit : (0 : ℚ) < 2 ^ (971 : Int) := by positivity
    generalize (2 : ℚ) ^ (971 : Int) = unit at hlargest hunit
    rw [abs_div, abs_of_pos (by linarith : 0 < piSize)]
    apply lt_of_le_of_lt (div_le_self (abs_nonneg v) hone)
    linarith
  obtain ⟨r, hr, herror⟩ := (hx.div hasSize_pi hlimit).exists_error
  have hsize := abs_cast_le hn
  have hnear := abs_sub_lt_of_isNear hr (hasValue_floatOfInt hn) (by linarith) h
  -- The quotient is so close to the integer that its rounding error is small.
  have hquotient : |v / piSize - n| ≤ 1 / 2 ^ 17 := by
    have htriangle := abs_sub_le (v / piSize) r n
    have hbound := abs_add_le (v / piSize - n) n
    rw [sub_add_cancel] at hbound
    rw [abs_sub_comm] at herror
    linarith
  use v, hx
  have hscaled : v - n * piSize = (v / piSize - n) * piSize := by
    field_simp
  calc
    |v - n * piSize| = |v / piSize - n| * |piSize| := by rw [hscaled, abs_mul]
    _ ≤ 1 / 2 ^ 17 * 4 := by
      rw [abs_of_pos (by linarith : 0 < piSize)]
      gcongr
    _ ≤ 1 / 2 ^ 15 := by norm_num

/-- Lowest terms have the value of the fraction. -/
theorem Form.lowest_div (n : Int) {d : Nat} (hd : 0 < d) :
  ((lowest n d).1 : ℚ) / (lowest n d).2 = n / d
  := by
  have hpos : 0 < n.natAbs.gcd d := Nat.gcd_pos_of_pos_right _ hd
  have hn : (n / (n.natAbs.gcd d : Int)) * (n.natAbs.gcd d : Int) = n :=
    Int.ediv_mul_cancel (Int.natCast_dvd.mpr (Nat.gcd_dvd_left n.natAbs d))
  have hdenominator : d / n.natAbs.gcd d * n.natAbs.gcd d = d :=
    Nat.div_mul_cancel (Nat.gcd_dvd_right n.natAbs d)
  have hne : ((n.natAbs.gcd d : Nat) : ℚ) ≠ 0 := by positivity
  rw [lowest, ← mul_div_mul_right _ _ hne]
  congr 1
  · exact_mod_cast hn
  · exact_mod_cast hdenominator

/-- What is found as an angle in radians is a multiple of π in lowest terms with a denominator of at
most twelve, and the number nearly has its value. -/
theorem exists_of_angle?_radians {x : Float} {form : Form} (h : angle? .radians x = some form) :
  ∃ (p : Int) (q : Nat), 1 ≤ q ∧ q ≤ 12 ∧ p.natAbs.Coprime q ∧
    IsWithin (1 / 2 ^ 15) x (p * piSize / q) ∧ form = .piMultiple p q
  := by
  rw [angle?_radians, Option.orElse_eq_some] at h
  rcases h with hwhole | ⟨-, hmultiple⟩
  · obtain ⟨n, hn, hnear, rfl⟩ := exists_of_wholePiMultiple? hwhole
    have hwithin := isWithin_of_isNear_div_pi hn hnear
    rw [← div_one (n * piSize), ← Nat.cast_one] at hwithin
    use n, 1, le_rfl, by decide, Nat.coprime_one_right _, hwithin
  · obtain ⟨d, hd, hform⟩ := List.exists_of_findSome?_eq_some hmultiple
    obtain ⟨n, hn, rfl⟩ := Option.map_eq_some_iff.mp hform
    obtain ⟨hlow, hhigh⟩ := List.mem_range'_1.mp hd
    have hbound := natAbs_le_of_nearestNumerator? hn
    have hsimple := isSimple_lowest 12 hbound hd
    have hwithin := isWithin_of_isNear_piMultiple hbound (by omega) (by omega)
      (isNear_of_nearestNumerator? hn).2
    rw [mul_div_right_comm, ← Form.lowest_div n (by omega : 0 < d), ← mul_div_right_comm] at hwithin
    refine ⟨_, _, hsimple.pos, hsimple.le, hsimple.coprime, hwithin, rfl⟩

/-! ### Integers -/

/-- A fraction with denominator one has the value of its numerator. -/
theorem Form.value_fraction_one {n : Int} (hn : n.natAbs ≤ 2147483647) :
  (fraction n 1).value = floatOfInt n
  := by
  rcases eq_or_ne n 0 with rfl | hne
  · apply zero_div_of_hasSize (hasSize_floatOfNat Nat.one_pos (by decide))
  · have hrounds := rounds_fraction hne (by omega) Nat.one_pos (by decide)
    rw [Nat.cast_one, div_one] at hrounds
    apply hrounds.eq (hasSize_floatOfInt hne (by omega)).rounds

/-! ### Kinds of forms -/

/-- What a number can be recognised as in a mode. -/
inductive RecognisedAs (x : Float) : AngleMode → Form → Prop where
  | known {mode : AngleMode} {form : Form} : form ∈ knownForms → isNear x form.value = true →
      RecognisedAs x mode form
  | piMultiple {p : Int} {q : Nat} : 1 ≤ q → q ≤ 12 → p.natAbs.Coprime q →
      IsWithin (1 / 2 ^ 15) x (p * piSize / q) → RecognisedAs x .radians (.piMultiple p q)
  | degrees {n : Int} : closeForm? knownForms x = none → n.natAbs ≤ 2147483647 →
      isNear x (Form.degrees n).value = true → RecognisedAs x .degrees (.degrees n)
  | fraction {mode : AngleMode} {p : Int} {q : Nat} : IsSimple 16 p q →
      isNear x (Form.fraction p q).value = true → RecognisedAs x mode (.fraction p q)
  | root {mode : AngleMode} {negative : Bool} {radicand : Nat} :
      isNear x (Form.root negative radicand).value = true →
      RecognisedAs x mode (.root negative radicand)

/-- What is found as an angle in degrees is a whole number of degrees of limited size, to which the
number is near. -/
theorem exists_of_wholeDegrees? {x : Float} {form : Form} (h : wholeDegrees? x = some form) :
  ∃ n : Int, n.natAbs ≤ 2147483647 ∧ isNear x (Form.degrees n).value = true ∧ form = .degrees n
  := by
  obtain ⟨n, hn, rfl⟩ := Option.map_eq_some_iff.mp h
  obtain ⟨hnearest, hnear⟩ := Option.filter_eq_some_iff.mp hn
  use n, (natAbs_le_of_boundedInteger? hnearest).2, hnear

/-- What is recognised is of one of these kinds. -/
theorem recognisedAs_of_recognise {mode : AngleMode} {x : Float} {form : Form}
    (h : recognise mode x = some form) :
  RecognisedAs x mode form
  := by
  simp only [recognise, Option.orElse_eq_some] at h
  rcases h with hknown | ⟨hnone, hangle | ⟨-, hfraction | ⟨-, hroot⟩⟩⟩
  · apply RecognisedAs.known (List.mem_of_find?_eq_some hknown) (isNear_of_closeForm? hknown)
  · cases mode with
    | radians =>
      obtain ⟨p, q, hpos, hle, hcoprime, hwithin, rfl⟩ := exists_of_angle?_radians hangle
      apply RecognisedAs.piMultiple hpos hle hcoprime hwithin
    | degrees =>
      rw [angle?_degrees] at hangle
      obtain ⟨n, hn, hnear, rfl⟩ := exists_of_wholeDegrees? hangle
      apply RecognisedAs.degrees hnone hn hnear
  · obtain ⟨p, q, hsimple, hnear, rfl⟩ := exists_of_fraction? hfraction
    apply RecognisedAs.fraction hsimple hnear
  · obtain ⟨n, -, hn⟩ := List.mem_flatMap.mp (List.mem_of_find?_eq_some hroot)
    have hnear := isNear_of_closeForm? hroot
    rw [List.mem_cons, List.mem_singleton] at hn
    rcases hn with rfl | rfl <;> apply RecognisedAs.root hnear

/-- What is recognised is a finite number. -/
theorem RecognisedAs.exists_hasValue {mode : AngleMode} {x : Float} {form : Form}
    (h : RecognisedAs x mode form) :
  ∃ v : ℚ, HasValue x v
  := by
  cases h with
  | known _ hnear | degrees _ _ hnear | fraction _ hnear | root hnear =>
    apply Calculator.exists_hasValue (isFinite_of_isNear hnear)
  | piMultiple _ _ _ hwithin =>
    obtain ⟨v, hx, -⟩ := hwithin
    exact ⟨v, hx⟩

end Calculator
