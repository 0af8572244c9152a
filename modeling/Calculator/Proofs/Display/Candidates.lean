import Calculator.Proofs.Display.Nearness

/-!
# Candidates

The searches for fractions and for multiples of π try denominators in turn, and both find the only
candidate there is.

* `IsSimple`: the quotients of integers in lowest terms that are searched for.  Each of them is
  reached with a denominator that is tried (`IsSimple.exists_scaled`), also an integer, as a
  fraction with denominator two; and what is reached with one is such a quotient in lowest terms
  (`isSimple_lowest`).
* A number that is near to a fraction or to a multiple of π nearly has its value
  (`isWithin_of_isNear_fraction`, `isWithin_of_isNear_piMultiple`).  Quotients with small
  denominators are far from each other (`mul_eq_mul_of_abs_sub_le`), so that there is only one to
  which a number is near, whatever the numerator with which it is found.
-/

namespace Calculator

/-! ### Simple quotients -/

/-- The quotients in lowest terms that are searched for with denominators up to a limit. -/
@[mk_iff]
structure IsSimple (limit : Nat) (p : Int) (q : Nat) : Prop where
  pos : 1 ≤ q
  le : q ≤ limit
  coprime : p.natAbs.Coprime q
  bound : p.natAbs ≤ 2147483647
  /-- An integer is found as a quotient by two. -/
  whole : q = 1 → 2 * p.natAbs ≤ 2147483647

instance (limit : Nat) (p : Int) (q : Nat) : Decidable (IsSimple limit p q) :=
  decidable_of_iff _ (isSimple_iff limit p q).symm

/-- Lowest terms are determined by the quotient. -/
theorem Form.lowest_eq {n p : Int} {d q : Nat} (h : n * q = p * d) (hcoprime : p.natAbs.Coprime q)
    (hq : 0 < q) (hd : 0 < d) :
  lowest n d = (p, q)
  := by
  have hdvd : q ∣ d := by
    apply hcoprime.symm.dvd_of_dvd_mul_left
    use n.natAbs
    have habs := congrArg Int.natAbs h
    rw [Int.natAbs_mul, Int.natAbs_mul, Int.natAbs_natCast, Int.natAbs_natCast] at habs
    rw [← habs, Nat.mul_comm]
  obtain ⟨c, rfl⟩ := hdvd
  have hc : 0 < c := Nat.pos_of_mul_pos_left hd
  have hn : n = p * c := by
    have hne : (q : Int) ≠ 0 := by omega
    apply Int.eq_of_mul_eq_mul_right hne
    rw [h]
    push_cast
    ring
  subst hn
  have hgcd : (p * c).natAbs.gcd (q * c) = c := by
    rw [Int.natAbs_mul, Int.natAbs_natCast, Nat.gcd_mul_right, hcoprime, Nat.one_mul]
  rw [lowest, hgcd, Int.mul_ediv_cancel _ (by omega), Nat.mul_div_cancel _ hc]

/-- A simple quotient is reached with a denominator that is tried, and the common divisor that is
taken out is a power of two. -/
theorem IsSimple.exists_scaled {limit : Nat} {p : Int} {q : Nat} (h : IsSimple limit p q)
    (hlimit : 2 ≤ limit) :
  ∃ (n : Int) (d k : Nat), d ∈ List.range' 2 (limit - 1) ∧ n.natAbs ≤ 2147483647 ∧
    n * q = p * d ∧ n.natAbs.gcd d = 2 ^ k
  := by
  rcases h.pos.eq_or_lt with rfl | hq
  · have hsize : (2 * p).natAbs = 2 * p.natAbs := Int.natAbs_mul 2 p
    refine ⟨2 * p, 2, 1, ?_, ?_, ?_, ?_⟩
    · rw [List.mem_range'_1]
      omega
    · rw [hsize]
      apply h.whole rfl
    · push_cast
      ring
    · rw [hsize]
      apply Nat.gcd_mul_right_left
  · refine ⟨p, q, 0, ?_, h.bound, rfl, h.coprime⟩
    have hle := h.le
    rw [List.mem_range'_1]
    omega

/-- What is reached with a denominator that is tried is simple in lowest terms. -/
theorem isSimple_lowest (limit : Nat) {n : Int} {d : Nat} (hn : n.natAbs ≤ 2147483647)
    (hd : d ∈ List.range' 2 (limit - 1)) :
  IsSimple limit (Form.lowest n d).1 (Form.lowest n d).2
  := by
  rw [List.mem_range'_1] at hd
  have hreduces := Form.reduces_lowest n (by omega : 0 < d)
  constructor
  · apply hreduces.denominator_pos (by omega)
  · apply hreduces.denominator_le.trans (by omega)
  · have hcoprime := Nat.coprime_div_gcd_div_gcd (m := n.natAbs) (n := d) hreduces.pos
    rw [Nat.div_eq_of_eq_mul_left hreduces.pos hreduces.numerator] at hcoprime
    apply hcoprime
  · apply hreduces.natAbs_le.trans hn
  · intro hwhole
    have hdivisor := hreduces.denominator
    have hnum := hreduces.numerator
    rw [hwhole, Nat.one_mul] at hdivisor
    rw [← hdivisor] at hnum
    have hle := Nat.mul_le_mul_left (Form.lowest n d).1.natAbs hd.1
    omega

/-- Quotients with small denominators that are close to each other are equal. -/
theorem mul_eq_mul_of_abs_sub_le {n n' : Int} {d d' : Nat} (hd : 1 ≤ d) (hle : d ≤ 16)
    (hd' : 1 ≤ d') (hle' : d' ≤ 16) (h : |(n : ℚ) / d - n' / d'| ≤ 1 / 2 ^ 10) :
  n * d' = n' * d
  := by
  have hpos : (0 : ℚ) < d * d' := by
    exact_mod_cast Nat.mul_pos hd hd'
  have hsize : (d : ℚ) * d' ≤ (256 : Nat) := by
    exact_mod_cast Nat.mul_le_mul hle hle'
  have hdiff : ((n * d' : Int) : ℚ) - (n' * d : Int) = (n / d - n' / d') * (d * d') := by
    have hne : (d : ℚ) ≠ 0 := by positivity
    have hne' : (d' : ℚ) ≠ 0 := by positivity
    push_cast
    field_simp
  apply eq_of_abs_sub_lt_one
  rw [hdiff, abs_mul, abs_of_pos hpos]
  calc
    |(n : ℚ) / d - n' / d'| * (d * d') ≤ 1 / 2 ^ 10 * (256 : Nat) := by gcongr
    _ < 1 := by norm_num

/-! ### Values of forms -/

/-- The integers of limited size are numbers. -/
theorem hasValue_floatOfInt {n : Int} (hn : n.natAbs ≤ 2147483647) :
  HasValue (floatOfInt n) n
  := by
  rcases eq_or_ne n 0 with rfl | hne
  · have hzero : HasMagnitude (floatOfInt 0) false 0 := by
      refine ⟨0, -1074, ofFloat_floatOfInt_zero, ?_⟩
      rw [Nat.cast_zero, zero_mul]
    rw [Int.cast_zero]
    apply hzero.hasValue
  · have hvalue := (hasSize_floatOfInt hne (by omega)).hasMagnitude.hasValue
    simp only [decide_eq_true_eq] at hvalue
    rw [Nat.cast_natAbs, Int.cast_abs] at hvalue
    split at hvalue
    · rename_i hneg
      rw [abs_of_neg (by exact_mod_cast hneg), neg_neg] at hvalue
      apply hvalue
    · rename_i hnonneg
      rw [abs_of_nonneg (by exact_mod_cast not_lt.mp hnonneg)] at hvalue
      apply hvalue

/-- The size of an integer of limited size, as a rational number. -/
theorem abs_cast_le {n : Int} (hn : n.natAbs ≤ 2147483647) :
  |(n : ℚ)| ≤ 2 ^ 31
  := by
  have hle : |(n : ℚ)| ≤ (2147483647 : Nat) := by
    rw [← Int.cast_abs, ← Nat.cast_natAbs]
    exact_mod_cast hn
  apply hle.trans
  norm_num

/-- The quotient by a positive integer is no larger. -/
theorem abs_div_natCast_le (t : ℚ) {d : Nat} (hd : 1 ≤ d) :
  |t / d| ≤ |t|
  := by
  rw [abs_div, Nat.abs_cast]
  apply div_le_self (abs_nonneg t)
  exact_mod_cast hd

/-- The size of a multiple of π by an integer of limited size. -/
theorem abs_mul_piSize_le {n : Int} (hn : n.natAbs ≤ 2147483647) :
  |n * piSize| ≤ 2 ^ 34
  := by
  have hsize : |piSize| ≤ 4 := by norm_num [piSize]
  calc
    |n * piSize| = |(n : ℚ)| * |piSize| := abs_mul _ _
    _ ≤ 2 ^ 31 * 4 := by gcongr; apply abs_cast_le hn
    _ ≤ 2 ^ 34 := by norm_num

/-- The product of a quotient with a denominator that reaches it is the numerator. -/
theorem div_mul_eq_of_mul_eq_mul {n p : Int} {d q : Nat} (hq : 1 ≤ q) (h : n * q = p * d) :
  (p : ℚ) / q * d = n
  := by
  have hne : (q : ℚ) ≠ 0 := by positivity
  rw [div_mul_eq_mul_div, div_eq_iff hne]
  exact_mod_cast h.symm

namespace Form

/-- The value of a fraction is nearly the quotient. -/
theorem isWithin_fraction {p : Int} {q : Nat} (hp : p.natAbs ≤ 2147483647) (hq : 1 ≤ q)
    (hle : q ≤ 16) :
  IsWithin (1 / 2 ^ 17) (fraction p q).value (p / q)
  := by
  have hsize := (abs_div_natCast_le p hq).trans (abs_cast_le hp)
  have hvalue := (hasValue_floatOfInt hp).isWithin.div (hasSize_floatOfNat hq (by omega))
    (by exact_mod_cast hq) zero_le_one (by linarith)
  rw [zero_add] at hvalue
  apply hvalue

/-- The value of a multiple of π is nearly the multiple. -/
theorem isWithin_piMultiple {p : Int} {q : Nat} (hp : p.natAbs ≤ 2147483647) (hq : 1 ≤ q)
    (hle : q ≤ 16) :
  IsWithin (1 / 2 ^ 16) (piMultiple p q).value (p * piSize / q)
  := by
  have hproduct := (hasValue_floatOfInt hp).isWithin.mul hasSize_pi (by norm_num [piSize])
    (by norm_num) (abs_mul_piSize_le hp)
  have hsize := (abs_div_natCast_le (p * piSize) hq).trans (abs_mul_piSize_le hp)
  have hvalue := hproduct.div (hasSize_floatOfNat hq (by omega)) (by exact_mod_cast hq)
    (by norm_num) hsize
  apply hvalue.mono
  norm_num

end Form

/-- A number that is near to a fraction nearly has its value. -/
theorem isWithin_of_isNear_fraction {x : Float} {p : Int} {q : Nat} (hp : p.natAbs ≤ 2147483647)
    (hq : 1 ≤ q) (hle : q ≤ 16) (h : isNear x (Form.fraction p q).value = true) :
  IsWithin (1 / 2 ^ 16) x (p / q)
  := by
  have hsize := (abs_div_natCast_le p hq).trans (abs_cast_le hp)
  apply ((Form.isWithin_fraction hp hq hle).of_isNear h (by norm_num) (by linarith)).mono
  norm_num

/-- A number that is near to a multiple of π nearly has its value. -/
theorem isWithin_of_isNear_piMultiple {x : Float} {p : Int} {q : Nat}
    (hp : p.natAbs ≤ 2147483647) (hq : 1 ≤ q) (hle : q ≤ 16)
    (h : isNear x (Form.piMultiple p q).value = true) :
  IsWithin (1 / 2 ^ 15) x (p * piSize / q)
  := by
  have hsize := (abs_div_natCast_le (p * piSize) hq).trans (abs_mul_piSize_le hp)
  apply ((Form.isWithin_piMultiple hp hq hle).of_isNear h (by norm_num) hsize).mono
  norm_num

/-! ### Searches -/

/-- The size of a numerator is limited. -/
theorem natAbs_le_of_nearestNumerator? {form : Int → Nat → Form} {x scaled : Float} {d : Nat}
    {n : Int} (h : nearestNumerator? form x scaled d = some n) :
  n.natAbs ≤ 2147483647
  := by
  obtain ⟨hn, -⟩ := Option.filter_eq_some_iff.mp h
  apply (natAbs_le_of_boundedInteger? hn).2

/-- A search over denominators finds a simple quotient, if this is reached with each denominator
that it can be reached with, and if nothing else is near. -/
theorem findSome?_eq_some_of_isSimple {limit : Nat} {form lowestForm : Int → Nat → Form} {x : Float}
    {scaled : Nat → Float} {p : Int} {q : Nat} (h : IsSimple limit p q) (hlimit : 2 ≤ limit)
    (hform : ∀ n d, lowestForm n d = form (Form.lowest n d).1 (Form.lowest n d).2)
    (hfound : ∀ (n : Int) (d k : Nat), 1 ≤ d → d ≤ limit → n.natAbs ≤ 2147483647 →
      n * q = p * d → n.natAbs.gcd d = 2 ^ k →
      nearestNumerator? form x (scaled d) d = some n)
    (hunique : ∀ (n : Int) (d : Nat), 1 ≤ d → d ≤ limit → n.natAbs ≤ 2147483647 →
      isNear x (form n d).value = true → Form.lowest n d = (p, q)) :
  ((List.range' 2 (limit - 1)).findSome? fun d =>
    (nearestNumerator? form x (scaled d) d).map fun n => lowestForm n d) = some (form p q)
  := by
  obtain ⟨n, d, k, hd, hn, hquotient, hdivisor⟩ := h.exists_scaled hlimit
  obtain ⟨hlow, hhigh⟩ := List.mem_range'_1.mp hd
  have hnumerator := hfound n d k (by omega) (by omega) hn hquotient hdivisor
  have hsome : ((List.range' 2 (limit - 1)).findSome? fun d =>
      (nearestNumerator? form x (scaled d) d).map fun n => lowestForm n d).isSome := by
    apply List.findSome?_isSome_iff.mpr
    use d, hd
    rw [hnumerator]
    rfl
  -- It may be found with another denominator, but in lowest terms it is the same.
  obtain ⟨found, hsearch⟩ := Option.isSome_iff_exists.mp hsome
  obtain ⟨d', hd', hfound'⟩ := List.exists_of_findSome?_eq_some hsearch
  obtain ⟨n', hn', rfl⟩ := Option.map_eq_some_iff.mp hfound'
  obtain ⟨hlow', hhigh'⟩ := List.mem_range'_1.mp hd'
  have hlowest := hunique n' d' (by omega) (by omega) (natAbs_le_of_nearestNumerator? hn')
    (isNear_of_nearestNumerator? hn').2
  rw [hsearch, hform, hlowest]

end Calculator
