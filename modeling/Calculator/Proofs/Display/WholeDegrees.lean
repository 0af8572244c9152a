import Calculator.Proofs.Display.Multiples

/-!
# The display of whole degrees

In degrees a number is shown with a degree sign exactly if it is near to an integer of limited size
other than `-1`, `0` and `1`, and it is shown as this integer (`display_degrees_iff`).  These three
are constants of their own and are shown as numbers, also in degrees.

* The constants that are tried first are `-1`, `0` and `1`, or farther from every integer than a
  number near to them can be (`isOwnConstant_or_isApart`); so they do not hide a whole number of
  degrees (`closeForm?_knownForms_of_isNear`).
* No other form and no decimal has a text with a degree sign (`exists_of_degreeSign`).
-/

namespace Calculator

/-- The integers that are constants of their own. -/
def ownConstants : List Int :=
  [-1, 0, 1]

/-- The integers that are constants of their own are of limited size. -/
theorem natAbs_le_of_mem_ownConstants :
  ∀ n ∈ ownConstants, n.natAbs ≤ 2147483647
  := by
  decide

/-- The integers that are constants of their own are shown as fractions. -/
theorem mem_knownForms_of_mem_ownConstants :
  ∀ n ∈ ownConstants, Form.fraction n 1 ∈ knownForms ∧ (Form.fraction n 1).value = floatOfInt n
  := by
  decide +kernel

/-- The constants that are tried first are integers that are constants of their own, or far from
every integer. -/
theorem isOwnConstant_or_isApart :
  ∀ form ∈ knownForms, form.value.isFinite = true ∧ |exactValue form.value| ≤ 2 ^ 34 ∧
    ((∃ n ∈ ownConstants, form = .fraction n 1 ∧ exactValue form.value = n) ∨
      1 / 2 ^ 10 < |exactValue form.value - round (exactValue form.value)|)
  := by
  decide +kernel

/-- A constant that is tried first and an integer to which the same number is near are the same. -/
theorem eq_fraction_of_isNear {x : Float} {form : Form} {n : Int} (hform : form ∈ knownForms)
    (hnear : isNear x form.value = true) (hn : n.natAbs ≤ 2147483647)
    (hx : isNear x (floatOfInt n) = true) :
  n ∈ ownConstants ∧ form = .fraction n 1
  := by
  obtain ⟨hfinite, hsize, hconstant⟩ := isOwnConstant_or_isApart form hform
  have hvalue := hasValue_exactValue hfinite
  generalize exactValue form.value = t at hsize hconstant hvalue
  have hinteger := (hasValue_floatOfInt hn).isWithin.of_isNear hx (by norm_num)
    ((abs_cast_le hn).trans (by norm_num))
  have hdistance := (hvalue.isWithin.of_isNear hnear (by norm_num) hsize).abs_sub_le hinteger
  rcases hconstant with ⟨k, hk, rfl, rfl⟩ | hapart
  · obtain rfl := eq_of_abs_sub_lt_one (lt_of_le_of_lt hdistance (by norm_num))
    use hk
  · have hround := (round_le t n).trans hdistance
    apply absurd hapart (not_lt.mpr (hround.trans (by norm_num)))

/-- A number that is near to a whole number of degrees is near to none of the constants that are
tried first. -/
theorem closeForm?_knownForms_of_isNear {x : Float} {n : Int} (hown : n ∉ ownConstants)
    (hn : n.natAbs ≤ 2147483647) (hx : isNear x (floatOfInt n) = true) :
  closeForm? knownForms x = none
  := by
  apply List.find?_eq_none.mpr
  intro form hform hnear
  apply hown (eq_fraction_of_isNear hform hnear hn hx).1

/-- An integer that is a constant of its own is shown as a number in both modes. -/
theorem display_of_mem_ownConstants {mode : AngleMode} {x : Float} {n : Int}
    (hown : n ∈ ownConstants) (hx : isNear x (floatOfInt n) = true) :
  display mode x = toString n
  := by
  obtain ⟨hmem, hvalue⟩ := mem_knownForms_of_mem_ownConstants n hown
  cases hknown : closeForm? knownForms x with
  | none =>
    rw [← hvalue] at hx
    cases List.find?_eq_none.mp hknown _ hmem hx
  | some form =>
    obtain ⟨-, rfl⟩ := eq_fraction_of_isNear (List.mem_of_find?_eq_some hknown)
      (isNear_of_closeForm? hknown) (natAbs_le_of_mem_ownConstants n hown) hx
    rw [display, recognise, hknown]
    apply String.append_empty

/-- A whole number of degrees to which a number is near is shown. -/
theorem display_of_isNear_degrees {x : Float} {n : Int} (hown : n ∉ ownConstants)
    (hn : n.natAbs ≤ 2147483647) (hx : isNear x (floatOfInt n) = true) :
  display .degrees x = toString n ++ "°"
  := by
  rw [display, recognise, closeForm?_knownForms_of_isNear hown hn hx, angle?_degrees,
    wholeDegrees?_eq_some hn hx]
  rfl

/-- What is shown with a degree sign is near to a whole number of degrees. -/
theorem exists_of_degreeSign {x : Float} (h : '°' ∈ (display .degrees x).toList) :
  ∃ n : Int, n ∉ ownConstants ∧ n.natAbs ≤ 2147483647 ∧ isNear x (floatOfInt n) = true
  := by
  rw [display] at h
  cases hform : recognise .degrees x with
  | none =>
    rw [hform] at h
    cases (isAscii_decimalText x).notMem (by decide) h
  | some form =>
    rw [hform] at h
    cases recognisedAs_of_recognise hform with
    | known hknown _ =>
      have hconstants : ∀ form ∈ knownForms, '°' ∉ form.render.toList := by decide
      cases hconstants form hknown h
    | @degrees n hnone hn hnear =>
      use n, ?_, hn, hnear
      intro hown
      obtain ⟨hmem, hvalue⟩ := mem_knownForms_of_mem_ownConstants n hown
      apply List.find?_eq_none.mp hnone (.fraction n 1) hmem
      rw [hvalue]
      apply hnear
    | fraction | root => cases Form.degreeSign_notMem_render (by simp) (by simp) h

/-- In degrees the display of a number ends with a degree sign exactly if the number is near to an
integer of limited size that is no constant of its own, and the display is this integer with a
degree sign. -/
theorem display_degrees_iff (x : Float) :
  ((∃ text : String, display .degrees x = text ++ "°") ↔
    ∃ n : Int, n ∉ [-1, 0, 1] ∧ n.natAbs ≤ 2147483647 ∧ isNear x (floatOfInt n) = true) ∧
  ∀ n : Int, n ∉ [-1, 0, 1] → n.natAbs ≤ 2147483647 → isNear x (floatOfInt n) = true →
    display .degrees x = toString n ++ "°"
  := by
  constructor
  · constructor
    · rintro ⟨text, htext⟩
      apply exists_of_degreeSign
      rw [htext, String.toList_append, List.mem_append]
      right
      decide
    · rintro ⟨n, hown, hn, hnear⟩
      use toString n, display_of_isNear_degrees hown hn hnear
  · intro n hown hn hnear
    apply display_of_isNear_degrees hown hn hnear

/-- A number just below ninety. -/
theorem display_degrees_iff_ninety :
  isNear 89.99999999999 (floatOfInt 90) = true ∧ display .degrees 89.99999999999 = "90°"
  := by
  have hnear : isNear 89.99999999999 (floatOfInt 90) = true := by decide +kernel
  use hnear
  apply (display_degrees_iff _).2 90 (by decide) (by decide) hnear

-- A constant of its own.
example : display .degrees 1.00000000005 = "1" := by
  decide +kernel

end Calculator
