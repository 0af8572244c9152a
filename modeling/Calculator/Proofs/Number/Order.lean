import Calculator.Proofs.Number.Value

/-!
# The order of numbers

Finite numbers are ordered as their values (`HasValue.lt_iff`, `HasValue.le_iff`).

* `IsCanonical.compare_eq`: mantissas with exponents are compared like the products that they stand
  for.
* `compare_unpackedOf`: numbers with signs are compared like their values, and zeros are equal.
* `HasValue.lt_iff_lt_literal`: a comparison with the number nearest to a decimal is one with the
  decimal, if this lies between the number and the one before it.
-/

namespace Calculator

open Float.Model Float.Model.UnpackedFloat

/-- Mantissas with exponents are compared like their values. -/
theorem IsCanonical.compare_eq {m m' : Nat} {e e' : Int} (hc : IsCanonical m e)
    (hc' : IsCanonical m' e') (hm : 0 < m) :
  (compare e e').then (compare m m') = compare ((m : ℚ) * 2 ^ e) (m' * 2 ^ e')
  := by
  have hle := hc.le_of_isLE hc'
  have hge := hc'.le_of_isLE hc
  have hswap : (compare e' e).then (compare m' m) = ((compare e e').then (compare m m')).swap := by
    rw [Ordering.swap_then, Int.compare_swap, Nat.compare_swap]
  rw [hswap, Ordering.isLE_swap] at hge
  rcases lt_trichotomy ((m : ℚ) * 2 ^ e) (m' * 2 ^ e') with hlt | heq | hgt
  · rw [compare_lt_iff_lt.mpr hlt]
    cases horder : (compare e e').then (compare m m') with
    | lt => rfl
    | eq | gt =>
      rw [horder] at hge
      exact absurd (hge rfl) (not_le.mpr hlt)
  · have hself := IsNearest.self m' e'
    rw [← heq] at hself
    obtain ⟨rfl, rfl⟩ := (IsNearest.self m e).unique hc hm hself hc'
    rw [Int.compare_eq_eq.mpr rfl, Nat.compare_eq_eq.mpr rfl, compare_eq_iff_eq.mpr rfl]
    rfl
  · rw [compare_gt_iff_gt.mpr hgt]
    cases horder : (compare e e').then (compare m m') with
    | gt => rfl
    | eq | lt =>
      rw [horder] at hle
      exact absurd (hle rfl) (not_le.mpr hgt)

/-- Opposite values are ordered the other way. -/
theorem compare_neg_neg (v w : ℚ) :
  compare (-v) (-w) = (compare v w).swap
  := by
  rcases lt_trichotomy v w with hlt | rfl | hgt
  · rw [compare_lt_iff_lt.mpr hlt, compare_gt_iff_gt.mpr (neg_lt_neg hlt)]
    rfl
  · rw [compare_eq_iff_eq.mpr rfl, compare_eq_iff_eq.mpr rfl]
    rfl
  · rw [compare_gt_iff_gt.mpr hgt, compare_lt_iff_lt.mpr (neg_lt_neg hgt)]
    rfl

/-- Numbers with signs are compared like their values. -/
theorem compare_unpackedOf {negative negative' : Bool} {m m' : Nat} {e e' : Int} {v w : ℚ}
    (hc : IsCanonical m e) (hc' : IsCanonical m' e')
    (hv : v = if negative then -((m : ℚ) * 2 ^ e) else m * 2 ^ e)
    (hw : w = if negative' then -((m' : ℚ) * 2 ^ e') else m' * 2 ^ e') :
  (unpackedOf negative m e).compare (unpackedOf negative' m' e') = some (compare v w)
  := by
  rcases Nat.eq_zero_or_pos m with rfl | hm
  · rw [Nat.cast_zero, zero_mul, neg_zero, ite_self] at hv
    subst hv
    rcases Nat.eq_zero_or_pos m' with rfl | hm'
    · rw [Nat.cast_zero, zero_mul, neg_zero, ite_self] at hw
      rw [hw, compare_eq_iff_eq.mpr rfl]
      rfl
    · have hpos : (0 : ℚ) < m' * 2 ^ e' := by positivity
      rw [unpackedOf, unpackedOf, dif_pos hm']
      cases negative'
      · rw [compare_lt_iff_lt.mpr (hw ▸ hpos)]
        rfl
      · rw [compare_gt_iff_gt.mpr (hw ▸ neg_lt_zero.mpr hpos)]
        rfl
  · have hpos : (0 : ℚ) < m * 2 ^ e := by positivity
    rcases Nat.eq_zero_or_pos m' with rfl | hm'
    · rw [Nat.cast_zero, zero_mul, neg_zero, ite_self] at hw
      subst hw
      rw [unpackedOf, unpackedOf, dif_pos hm]
      cases negative
      · rw [compare_gt_iff_gt.mpr (hv ▸ hpos)]
        rfl
      · rw [compare_lt_iff_lt.mpr (hv ▸ neg_lt_zero.mpr hpos)]
        rfl
    · have hpos' : (0 : ℚ) < m' * 2 ^ e' := by positivity
      have hsizes := hc.compare_eq hc' hm
      rw [unpackedOf, unpackedOf, dif_pos hm, dif_pos hm']
      cases negative
      · cases negative'
        · rw [hv, hw]
          exact congrArg some hsizes
        · have hlt : w < v := by
            rw [hv, hw]
            exact lt_trans (neg_lt_zero.mpr hpos') hpos
          rw [compare_gt_iff_gt.mpr hlt]
          rfl
      · cases negative'
        · have hlt : v < w := by
            rw [hv, hw]
            exact lt_trans (neg_lt_zero.mpr hpos) hpos'
          rw [compare_lt_iff_lt.mpr hlt]
          rfl
        · rw [hv, hw, if_pos rfl, if_pos rfl, compare_neg_neg, ← hsizes]
          rfl

/-- The unpacked forms of two finite numbers are compared like their values. -/
theorem HasValue.compare_eq {x y : Float} {v w : ℚ} (hx : HasValue x v) (hy : HasValue y w) :
  x.toModel.unpack.compare y.toModel.unpack = some (compare v w)
  := by
  obtain ⟨negative, m, e, hread, hv⟩ := hx
  obtain ⟨negative', m', e', hread', hw⟩ := hy
  rw [Reading.unpack_toModel hread, Reading.unpack_toModel hread']
  apply compare_unpackedOf (Reading.isCanonical_of_ofFloat hread)
    (Reading.isCanonical_of_ofFloat hread')
  · rw [hv]
    cases negative
    · rfl
    · rw [if_pos rfl, if_pos rfl, neg_neg]
  · rw [hw]
    cases negative'
    · rfl
    · rw [if_pos rfl, if_pos rfl, neg_neg]

/-- A finite number is below another one exactly if its value is. -/
theorem HasValue.lt_iff {x y : Float} {v w : ℚ} (hx : HasValue x v) (hy : HasValue y w) :
  x < y ↔ v < w
  := by
  have hlt : x < y ↔ (x.toModel.unpack.compare y.toModel.unpack == some .lt) = true :=
    decide_eq_true_iff
  rw [hlt, hx.compare_eq hy, beq_iff_eq, Option.some.injEq, compare_lt_iff_lt]

/-- A finite number is at most another one exactly if its value is. -/
theorem HasValue.le_iff {x y : Float} {v w : ℚ} (hx : HasValue x v) (hy : HasValue y w) :
  x ≤ y ↔ v ≤ w
  := by
  have hle : x ≤ y ↔ (x.toModel.unpack.compare y.toModel.unpack).any (·.isLE) = true :=
    decide_eq_true_iff
  rw [hle, hx.compare_eq hy, Option.any_some, Ordering.isLE_iff_ne_gt, compare_gt_iff_gt,
    not_lt]

/-- Below a number with a mantissa that is not the least one there is none above the number with the
mantissa before it. -/
theorem IsCanonical.le_pred {m m' : Nat} {e e' : Int} (hc : IsCanonical m e)
    (hc' : IsCanonical m' e') (hm' : 2 ^ 52 < m') (h : (m : ℚ) * 2 ^ e < m' * 2 ^ e') :
  (m : ℚ) * 2 ^ e ≤ (m' - 1) * 2 ^ e'
  := by
  have hpos : (0 : ℚ) < 2 ^ e' := by positivity
  have hmantissa : (m : ℚ) ≤ 2 ^ 53 := by exact_mod_cast Nat.le_of_lt hc.lt
  have hpred : (2 : ℚ) ^ 52 ≤ m' - 1 := by
    rw [le_sub_iff_add_le]
    exact_mod_cast hm'
  rcases lt_trichotomy e e' with hlt | rfl | hgt
  · have hhalf : (2 : ℚ) ^ e ≤ 2 ^ (e' - 1) := zpow_le_zpow_right₀ (by norm_num) (by omega)
    have hdouble : (2 : ℚ) ^ e' = 2 ^ 1 * 2 ^ (e' - 1) := by
      rw [← zpow_two_add]
      congr 1
      omega
    calc
      (m : ℚ) * 2 ^ e ≤ 2 ^ 53 * 2 ^ (e' - 1) := by gcongr
      _ = 2 ^ 52 * 2 ^ e' := by rw [hdouble]; ring
      _ ≤ (m' - 1) * 2 ^ e' := by gcongr
  · have hmm : m < m' := by exact_mod_cast lt_of_mul_lt_mul_right h (le_of_lt hpos)
    gcongr
    rw [le_sub_iff_add_le]
    exact_mod_cast hmm
  · -- A larger exponent is not the least one, so that the mantissa has all its bits.
    have hlow := hc'.low
    have hnormal : 2 ^ 52 ≤ m := hc.normal.resolve_right (by omega)
    have hdouble : (2 : ℚ) ^ (e' + (1 : Nat)) ≤ 2 ^ e := zpow_le_zpow_right₀ (by norm_num) (by omega)
    rw [zpow_two_add] at hdouble
    have hm : (2 : ℚ) ^ 52 ≤ m := by exact_mod_cast hnormal
    have hlarge : (m' : ℚ) ≤ 2 ^ 53 := by exact_mod_cast Nat.le_of_lt hc'.lt
    have hcontra : (m' : ℚ) * 2 ^ e' ≤ m * 2 ^ e := by
      calc
        (m' : ℚ) * 2 ^ e' ≤ 2 ^ 53 * 2 ^ e' := by gcongr
        _ = 2 ^ 52 * (2 ^ 1 * 2 ^ e') := by ring
        _ ≤ m * 2 ^ e := by gcongr
    apply absurd h (not_lt.mpr hcontra)

/-- A number that is not negative is below a positive number exactly if its value is below a decimal
that lies between this number and the one before it. -/
theorem HasValue.lt_iff_lt_literal {x y : Float} {v t : ℚ} {m : Nat} {e : Int} (hx : HasValue x v)
    (hv : 0 ≤ v) (hread : Reading.ofFloat y = .finite false m e) (hm : 2 ^ 52 < m)
    (hlow : (m - 1) * 2 ^ e < t) (hhigh : t ≤ m * 2 ^ e) :
  x < y ↔ v < t
  := by
  have hy : HasMagnitude y false (m * 2 ^ e) := ⟨m, e, hread, rfl⟩
  have hlt := hx.lt_iff hy.hasValue
  rw [if_neg Bool.false_ne_true] at hlt
  obtain ⟨negative, m', e', hread', hvalue⟩ := hx
  have hsize := abs_eq_of_size_eq (by positivity) hvalue
  rw [abs_of_nonneg hv] at hsize
  rw [hlt, hsize]
  constructor
  · intro h
    have hpred := (Reading.isCanonical_of_ofFloat hread').le_pred
      (Reading.isCanonical_of_ofFloat hread) hm h
    linarith
  · intro h
    linarith

end Calculator
