import Calculator.Proofs.Display.Candidates

/-!
# The search for angles

The tables of common angles only make the search for angles faster: without them it finds the same
(`angle?_eq_search`).

* A multiple of π in lowest terms to which a number is near is found among the whole multiples and
  the multiples with a denominator (`multiple?_eq_some`).  A number just below a whole multiple is
  cut to the multiple before it, which is not near, and is found with denominator two.
* A whole number of degrees to which a number is near is found (`wholeDegrees?_eq_some`).
-/

namespace Calculator

/-! ### Multiples of π -/

/-- The quotient by π of a number that is nearly a multiple of π. -/
theorem isWithin_div_pi {x : Float} {t ε : ℚ} (hx : IsWithin ε x (t * piSize)) (hε : ε ≤ 1)
    (ht : |t| ≤ 2 ^ 34) :
  IsWithin (ε + 1 / 2 ^ 17) (x / pi) t
  := by
  have hone : 1 ≤ piSize := by norm_num [piSize]
  have hvalue : t * piSize / piSize = t := mul_div_cancel_right₀ t (by linarith)
  rw [← hvalue] at ht ⊢
  apply hx.div hasSize_pi hone hε ht

/-- The numerator over a denominator that is tried is found, if the number is near to the multiple
of π. -/
theorem nearestNumerator?_piMultiple {x : Float} {n p : Int} {d q : Nat}
    (hx : IsWithin (1 / 2 ^ 15) x (p * piSize / q)) (hq : 1 ≤ q) (hquotient : n * q = p * d)
    (hd : 1 ≤ d) (hle : d ≤ 12) (hn : n.natAbs ≤ 2147483647)
    (hnear : isNear x (Form.piMultiple n d).value = true) :
  nearestNumerator? .piMultiple x (x * floatOfNat d / pi) d = some n
  := by
  have hone : (1 : ℚ) ≤ d := by exact_mod_cast hd
  have htwelve : (d : ℚ) ≤ (12 : Nat) := by exact_mod_cast hle
  have hsize := abs_cast_le hn
  have hproduct : p * piSize / q * d = n * piSize := by
    rw [← div_mul_eq_of_mul_eq_mul hq hquotient]
    ring
  have hbound := abs_mul_piSize_le hn
  push_cast at htwelve
  rw [← hproduct] at hbound
  have hscaled := hx.mul (hasSize_floatOfNat hd (by omega)) hone (by linarith) hbound
  rw [hproduct] at hscaled
  apply nearestNumerator?_eq_some (isWithin_div_pi hscaled (by linarith) (by linarith))
    (by linarith) hn hnear

/-- There is only one multiple of π in lowest terms with a small denominator to which a number is
near. -/
theorem lowest_eq_of_isNear_piMultiple {x : Float} {n p : Int} {d q : Nat} (h : IsSimple 12 p q)
    (hx : isNear x (Form.piMultiple p q).value = true) (hn : n.natAbs ≤ 2147483647) (hd : 1 ≤ d)
    (hle : d ≤ 12) (hnear : isNear x (Form.piMultiple n d).value = true) :
  Form.lowest n d = (p, q)
  := by
  have hq := h.le
  have hp := isWithin_of_isNear_piMultiple h.bound h.pos (by omega) hx
  have hn := isWithin_of_isNear_piMultiple hn hd (by omega) hnear
  have hone : 1 ≤ |piSize| := by norm_num [piSize]
  have hfactor : n * piSize / d - p * piSize / q = (n / d - p / q) * piSize := by ring
  have hdistance := hn.abs_sub_le hp
  rw [hfactor, abs_mul] at hdistance
  apply Form.lowest_eq _ h.coprime h.pos hd
  apply mul_eq_mul_of_abs_sub_le hd (by omega) h.pos (by omega)
  calc
    |(n : ℚ) / d - p / q| ≤ |(n : ℚ) / d - p / q| * |piSize| :=
      le_mul_of_one_le_right (abs_nonneg _) hone
    _ ≤ 1 / 2 ^ 15 + 1 / 2 ^ 15 := hdistance
    _ ≤ 1 / 2 ^ 10 := by norm_num

/-- What is found as a whole multiple is the multiple of π in lowest terms to which the number is
near. -/
theorem eq_of_wholePiMultiple? {x : Float} {p : Int} {q : Nat} {form : Form} (h : IsSimple 12 p q)
    (hx : isNear x (Form.piMultiple p q).value = true) (hform : wholePiMultiple? x = some form) :
  form = .piMultiple p q
  := by
  obtain ⟨n, hbound, hnear, rfl⟩ := exists_of_wholePiMultiple? hform
  have hq := h.le
  have hp := isWithin_of_isNear_piMultiple h.bound h.pos (by omega) hx
  have hsize := (abs_div_natCast_le p h.pos).trans (abs_cast_le h.bound)
  have hn := (hasValue_floatOfInt hbound).isWithin.of_isNear hnear (by norm_num)
    ((abs_cast_le hbound).trans (by norm_num))
  -- The quotient by π is nearly `p / q`, and near to `n`, so that the quotient is whole.
  rw [mul_div_right_comm] at hp
  have hdistance := hn.abs_sub_le (isWithin_div_pi hp (by norm_num) (by linarith))
  have hlowest : Form.lowest n 1 = (p, q) := by
    apply Form.lowest_eq _ h.coprime h.pos Nat.one_pos
    apply mul_eq_mul_of_abs_sub_le le_rfl (by decide) h.pos (by omega)
    rw [Nat.cast_one, div_one]
    apply hdistance.trans
    norm_num
  rw [← Form.piMultipleOf_one, Form.piMultipleOf, hlowest]

/-- A multiple of π to which a number is near is found with one of the denominators. -/
theorem piFraction?_eq_some {x : Float} {p : Int} {q : Nat} (h : IsSimple 12 p q)
    (hx : isNear x (Form.piMultiple p q).value = true) :
  piFraction? x = some (.piMultiple p q)
  := by
  have hq := h.le
  have hwithin := isWithin_of_isNear_piMultiple h.bound h.pos (by omega) hx
  apply findSome?_eq_some_of_isSimple h (by decide) fun _ _ => rfl
  · intro n d k hd hle hn hquotient hdivisor
    have hform : Form.piMultipleOf n d = .piMultiple p q := by
      rw [Form.piMultipleOf, Form.lowest_eq hquotient h.coprime h.pos hd]
    rw [← hform, Form.value_piMultipleOf hdivisor (by omega) hd (by omega)] at hx
    apply nearestNumerator?_piMultiple hwithin h.pos hquotient hd hle hn hx
  · intro n d hd hle hn hnear
    apply lowest_eq_of_isNear_piMultiple h hx hn hd hle hnear

/-- A multiple of π in lowest terms to which a number is near is found, whether or not it is taken
for a whole multiple. -/
theorem multiple?_eq_some {x : Float} {p : Int} {q : Nat} (h : IsSimple 12 p q)
    (hx : isNear x (Form.piMultiple p q).value = true) :
  (wholePiMultiple? x <|> piFraction? x) = some (.piMultiple p q)
  := by
  cases hwhole : wholePiMultiple? x with
  | none => apply piFraction?_eq_some h hx
  | some form =>
    rw [eq_of_wholePiMultiple? h hx hwhole]
    rfl

/-! ### Degrees -/

/-- A whole number of degrees to which a number is near is found. -/
theorem wholeDegrees?_eq_some {x : Float} {n : Int} (hn : n.natAbs ≤ 2147483647)
    (hx : isNear x (Form.degrees n).value = true) :
  wholeDegrees? x = some (.degrees n)
  := by
  have hwithin := (hasValue_floatOfInt hn).isWithin.of_isNear hx (by norm_num)
    ((abs_cast_le hn).trans (by norm_num))
  rw [wholeDegrees?, nearestInteger?_eq_some hwithin (by norm_num) hn]
  apply Option.map_eq_some_iff.mpr
  use n
  rw [Option.filter_eq_some_iff]
  use ⟨rfl, hx⟩

/-! ### Tables -/

/-- A multiple of π in lowest terms with a small denominator. -/
def IsSimpleMultiple : Form → Prop
  | .piMultiple p q => IsSimple 12 p q
  | _ => False

instance : DecidablePred IsSimpleMultiple
  | .piMultiple p q => inferInstanceAs (Decidable (IsSimple 12 p q))
  | .named .. | .degrees _ | .fraction .. | .root .. => inferInstanceAs (Decidable False)

/-- The common angles in radians are multiples of π in lowest terms. -/
theorem isSimpleMultiple_of_mem_commonAngles :
  ∀ form ∈ commonAngles .radians, IsSimpleMultiple form
  := by
  decide

/-- The common angles in degrees are whole numbers of limited size. -/
theorem exists_of_mem_commonAngles {form : Form} (h : form ∈ commonAngles .degrees) :
  ∃ n : Int, n.natAbs ≤ 2147483647 ∧ form = .degrees n
  := by
  obtain ⟨n, hn, rfl⟩ := List.mem_map.mp h
  use n
  constructor
  · revert n
    decide
  · rfl

/-- In radians the search without the table finds what is found with it. -/
theorem angle?_radians (x : Float) :
  angle? .radians x = (wholePiMultiple? x <|> piFraction? x)
  := by
  rw [angle?]
  cases hcommon : closeForm? (commonAngles .radians) x with
  | none => rfl
  | some form =>
    have hsimple := isSimpleMultiple_of_mem_commonAngles form (List.mem_of_find?_eq_some hcommon)
    have hnear := isNear_of_closeForm? hcommon
    cases form with
    | piMultiple p q =>
      rw [multiple?_eq_some hsimple hnear]
      rfl
    | named | degrees | fraction | root => cases hsimple

/-- In degrees the search without the table finds what is found with it. -/
theorem angle?_degrees (x : Float) :
  angle? .degrees x = wholeDegrees? x
  := by
  rw [angle?]
  cases hcommon : closeForm? (commonAngles .degrees) x with
  | none => rfl
  | some form =>
    obtain ⟨n, hn, rfl⟩ := exists_of_mem_commonAngles (List.mem_of_find?_eq_some hcommon)
    rw [wholeDegrees?_eq_some hn (isNear_of_closeForm? hcommon)]
    rfl

/-- The tables of common angles are only a fast path: in both modes the search without its table
finds the same form, and so the same text, whatever the number is. -/
theorem angle?_eq_search (x : Float) :
  angle? .radians x = (wholePiMultiple? x <|> piFraction? x) ∧ angle? .degrees x = wholeDegrees? x
  := ⟨angle?_radians x, angle?_degrees x⟩

-- Just below a whole multiple the quotient by π is cut to the multiple before it.
example :
    wholePiMultiple? 6.283185307179585 = none ∧
      piFraction? 6.283185307179585 = some (.piMultiple 2 1) := by
  decide +kernel

end Calculator
