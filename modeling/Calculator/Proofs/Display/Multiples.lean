import Calculator.Proofs.Display.Forms
import Calculator.Proofs.Display.Letters

/-!
# The display of multiples of π

In radians every number that is near to a multiple of π in lowest terms with a denominator of at
most twelve is shown as this multiple, and in both modes what is shown with the letter π is such a
multiple (`display_multiples`).

* The constants that are tried first are multiples of π themselves, or zero, or farther from every
  multiple of π than a number near to them can be (`isSimpleMultiple_or_isApart`); so they do not
  hide a multiple (`render_of_mem_knownForms`).
* Nothing but a multiple of π has a text with this letter: not the other forms
  (`Form.pi_notMem_render`), and no decimal (`pi_notMem_decimalText`).
-/

namespace Calculator

/-! ### Texts -/

/-- The canonical text of a multiple of π in lowest terms. -/
def multipleText (p : Int) (q : Nat) : String :=
  match p, q with
  | 0, _ => "0"
  | 1, 1 => "π"
  | -1, 1 => "-π"
  | p, 1 => toString p ++ "π"
  | 1, q => "π/" ++ toString q
  | -1, q => "-π/" ++ toString q
  | p, q => toString p ++ "π/" ++ toString q

/-- The text of a multiple of π is the canonical one. -/
theorem Form.render_piMultiple (p : Int) (q : Nat) :
  (piMultiple p q).render = multipleText p q
  := by
  have hpositive : ∀ s : String, "π" ++ ("/" ++ s) = "π/" ++ s :=
    fun _ => String.append_assoc.symm
  have hnegative : ∀ s : String, "-π" ++ ("/" ++ s) = "-π/" ++ s :=
    fun _ => String.append_assoc.symm
  rw [multipleText.eq_def]
  split <;>
    simp_all [render, factorText, denominatorText, String.append_assoc]

/-! ### Constants apart from the multiples of π -/

/-- The exact value of a finite number. -/
def exactValue (x : Float) : ℚ :=
  match Reading.ofFloat x with
  | .finite negative m e =>
    if negative then -(scaledNumerator m e / scaledDenominator e : ℚ)
    else scaledNumerator m e / scaledDenominator e
  | _ => 0

/-- A finite number has its exact value. -/
theorem hasValue_exactValue {x : Float} (h : x.isFinite = true) :
  HasValue x (exactValue x)
  := by
  obtain ⟨negative, m, e, hread⟩ := Reading.exists_finite_of_isFinite h
  have hx : HasMagnitude x negative (m * 2 ^ e) := ⟨m, e, hread, rfl⟩
  rw [exactValue, hread]
  simp only [scaledNumerator_div_scaledDenominator]
  apply hx.hasValue

/-- A value that is far from the multiples of π with small denominators: its products with these
are farther from the whole multiples than the errors of two comparisons can make up for. -/
def IsApart (t : ℚ) : Prop :=
  ∀ q ∈ List.range' 1 12, 1 / 2 ^ 10 < |t * q / piSize - round (t * q / piSize)|

instance : DecidablePred IsApart :=
  fun _ => inferInstanceAs (Decidable (∀ q ∈ List.range' 1 12, _))

/-- A number that is near to a multiple of π is not near to what is far from them. -/
theorem IsApart.not_isNear {x y : Float} {t : ℚ} {p : Int} {q : Nat} (ht : IsApart t)
    (hy : HasValue y t) (hsize : |t| ≤ 2 ^ 34) (h : IsSimple 12 p q)
    (hx : isNear x (Form.piMultiple p q).value = true) :
  ¬isNear x y = true
  := by
  intro hnear
  have hq := h.le
  have hlow : (1 : ℚ) ≤ q := by exact_mod_cast h.pos
  have hhigh : (q : ℚ) ≤ (12 : Nat) := by exact_mod_cast hq
  have hone : 1 ≤ piSize := by norm_num [piSize]
  have hp := isWithin_of_isNear_piMultiple h.bound h.pos (by omega) hx
  have hdistance := (hy.isWithin.of_isNear hnear (by norm_num) hsize).abs_sub_le hp
  have hscaled : t * q / piSize - p = (t - p * piSize / q) * (q / piSize) := by
    field_simp
  have hfactor : |(q : ℚ) / piSize| ≤ 12 := by
    rw [abs_of_pos (by positivity)]
    apply (div_le_self (by linarith) hone).trans
    exact_mod_cast hq
  have hround : |t * q / piSize - round (t * q / piSize)| ≤ 1 / 2 ^ 10 := by
    calc
      |t * q / piSize - round (t * q / piSize)| ≤ |t * q / piSize - p| := round_le _ p
      _ = |t - p * piSize / q| * |q / piSize| := by rw [hscaled, abs_mul]
      _ ≤ (0 + 1 / 2 ^ 32 + 1 / 2 ^ 15) * 12 := by gcongr
      _ ≤ 1 / 2 ^ 10 := by norm_num
  have hmem : q ∈ List.range' 1 12 := by
    rw [List.mem_range'_1]
    have hpos := h.pos
    omega
  apply absurd (ht q hmem) (not_lt.mpr hround)

/-- The constants that are tried first are multiples of π, or zero, or far from the multiples of
π. -/
theorem isSimpleMultiple_or_isApart :
  ∀ form ∈ knownForms, IsSimpleMultiple form ∨ form = .fraction 0 1 ∨
    form.value.isFinite = true ∧ |exactValue form.value| ≤ 2 ^ 34 ∧
      IsApart (exactValue form.value)
  := by
  decide +kernel

/-- A number has one multiple of π in lowest terms with a small denominator to which it is near. -/
theorem eq_of_isNear_piMultiple {x : Float} {p p' : Int} {q q' : Nat} (h : IsSimple 12 p q)
    (hx : isNear x (Form.piMultiple p q).value = true) (h' : IsSimple 12 p' q')
    (hx' : isNear x (Form.piMultiple p' q').value = true) :
  Form.piMultiple p' q' = .piMultiple p q
  := Option.some.inj ((piFraction?_eq_some h' hx').symm.trans (piFraction?_eq_some h hx))

/-- A constant that is tried first and to which a number is near is shown as the multiple of π to
which it is near. -/
theorem render_of_mem_knownForms {x : Float} {p : Int} {q : Nat} {form : Form}
    (h : IsSimple 12 p q) (hx : isNear x (Form.piMultiple p q).value = true)
    (hform : form ∈ knownForms) (hnear : isNear x form.value = true) :
  form.render = multipleText p q
  := by
  rcases isSimpleMultiple_or_isApart form hform with hsimple | rfl | ⟨hfinite, hsize, hapart⟩
  · cases form with
    | piMultiple p' q' =>
      rw [eq_of_isNear_piMultiple h hx hsimple hnear, Form.render_piMultiple]
    | named | degrees | fraction | root => cases hsimple
  · -- Zero is among the constants as a fraction, and is shown like the multiple.
    have hzero : (Form.piMultiple 0 1).value = (Form.fraction 0 1).value := by decide +kernel
    rw [← hzero] at hnear
    rw [← Form.render_piMultiple, ← eq_of_isNear_piMultiple h hx (by decide) hnear]
    rfl
  · cases hapart.not_isNear (hasValue_exactValue hfinite) hsize h hx hnear

/-- In radians a multiple of π to which a number is near is shown. -/
theorem display_radians {x : Float} {p : Int} {q : Nat} (h : IsSimple 12 p q)
    (hx : isNear x (Form.piMultiple p q).value = true) :
  display .radians x = multipleText p q
  := by
  rw [display, recognise]
  cases hknown : closeForm? knownForms x with
  | some form =>
    apply render_of_mem_knownForms h hx (List.mem_of_find?_eq_some hknown)
    apply isNear_of_closeForm? hknown
  | none =>
    rw [angle?_radians, multiple?_eq_some h hx]
    apply Form.render_piMultiple

/-! ### Texts without π -/

/-- There is no π in a decimal. -/
theorem pi_notMem_decimalText (x : Float) :
  'π' ∉ (decimalText x).toList
  := (isAscii_decimalText x).notMem (by decide)

/-! ### The display -/

/-- A form whose text has a π is a multiple of π in lowest terms with a denominator of at most
twelve. -/
theorem exists_of_recognise {mode : AngleMode} {x : Float} {form : Form}
    (h : recognise mode x = some form) (hpi : 'π' ∈ form.render.toList) :
  ∃ (p : Int) (q : Nat), 1 ≤ q ∧ q ≤ 12 ∧ p.natAbs.Coprime q ∧ form = .piMultiple p q
  := by
  cases recognisedAs_of_recognise h with
  | known hknown _ =>
    have hconstants : ∀ form ∈ knownForms, 'π' ∈ form.render.toList → IsSimpleMultiple form := by
      decide
    have hsimple := hconstants form hknown hpi
    cases form with
    | piMultiple p q => use p, q, hsimple.pos, hsimple.le, hsimple.coprime
    | named | degrees | fraction | root => cases hsimple
  | @piMultiple p q hpos hle hcoprime _ => use p, q, hpos, hle, hcoprime
  | degrees | fraction | root => cases Form.pi_notMem_render (by simp) (by simp) hpi

/-- In radians a number that is near to a multiple of π in lowest terms with a denominator of at
most twelve is shown as this multiple; and in both modes what is shown with the letter π is such a
multiple. -/
theorem display_multiples (x : Float) :
  (∀ (p : Int) (q : Nat), IsSimple 12 p q → isNear x (Form.piMultiple p q).value = true →
    display .radians x = multipleText p q) ∧
  ∀ mode : AngleMode, 'π' ∈ (display mode x).toList →
    ∃ (p : Int) (q : Nat), 1 ≤ q ∧ q ≤ 12 ∧ p.natAbs.Coprime q ∧ display mode x = multipleText p q
  := by
  constructor
  · intro p q hsimple hnear
    apply display_radians hsimple hnear
  · intro mode hpi
    rw [display] at hpi ⊢
    cases hform : recognise mode x with
    | none =>
      rw [hform] at hpi
      cases pi_notMem_decimalText x hpi
    | some form =>
      rw [hform] at hpi
      obtain ⟨p, q, hpos, hle, hcoprime, rfl⟩ := exists_of_recognise hform hpi
      use p, q, hpos, hle, hcoprime
      apply Form.render_piMultiple

/-- A number just below four times π, whose quotient by π is cut to three. -/
theorem display_multiples_four_pi :
  IsSimple 12 4 1 ∧ isNear 12.566370614359170 (Form.piMultiple 4 1).value = true ∧
    display .radians 12.566370614359170 = "4π" ∧
    ∃ (p : Int) (q : Nat), 1 ≤ q ∧ q ≤ 12 ∧ p.natAbs.Coprime q ∧ "4π" = multipleText p q
  := by
  have hsimple : IsSimple 12 4 1 := by decide
  have hnear : isNear 12.566370614359170 (Form.piMultiple 4 1).value = true := by decide +kernel
  have hdisplay : display .radians 12.566370614359170 = "4π" :=
    (display_multiples 12.566370614359170).1 4 1 hsimple hnear
  use hsimple, hnear, hdisplay
  have hletter : 'π' ∈ (display .radians 12.566370614359170).toList := by
    rw [hdisplay]
    decide
  have hmultiple := (display_multiples 12.566370614359170).2 .radians hletter
  rw [hdisplay] at hmultiple
  apply hmultiple

end Calculator
