import Calculator.Proofs.Number.Monotone
import Calculator.Proofs.Operation.Integrality

/-!
# Factorials

The factorial is a product in double precision that stops once it is infinite.  It is the same
number as the product taken to its end (`factorial_eq_fullProduct`), because an infinite product
stays infinite (`fullProduct_eq_positiveInfinity`).

Up to `170!` the factors are exact, and the errors of the roundings are too small for the product to
reach the limit from which on numbers are infinite (`FiniteProduct.succ`); `171!` is beyond it.

* `isInf_fullProduct_iff`, `isNaN_fullProduct`: which products are infinite, and that all of them
  are defined.
* `fullProduct_le`: a product does not get smaller when factors are added.
* `UnaryOp.apply_factorial`: the values of the operation.
-/

namespace Calculator

/-- The product `1 * 2 * … * n` in double precision, taken from the left without a check for
infinity. -/
def fullProduct : Nat → Float
  | 0 => 1.0
  | n + 1 => fullProduct n * floatOfNat (n + 1)

/-! ### Finite products -/

/-- How much larger than the exact product a product is at most, for each of its factors. -/
def roundingFactor : ℚ :=
  1 + 1 / 2 ^ 51

/-- A product with its value, which is not far above the exact product. -/
structure FiniteProduct (n : Nat) (v : ℚ) : Prop where
  hasMagnitude : HasMagnitude (fullProduct n) false v
  one_le : 1 ≤ v
  le : v ≤ n.factorial * roundingFactor ^ n

/-- Up to `170!` exact products are so far below the limit from which on numbers are infinite that
the errors of the roundings do not matter. -/
theorem factorial_mul_lt_overflowLimit {n : Nat} (hn : n ≤ 170) :
  n.factorial * roundingFactor ^ n < overflowLimit
  := by
  have herrors : roundingFactor ^ n ≤ 2 := by
    calc
      roundingFactor ^ n ≤ roundingFactor ^ 170 := by
        gcongr
        norm_num [roundingFactor]
      _ ≤ 2 := by norm_num [roundingFactor]
  have hexact : (n.factorial : ℚ) < 2 ^ 49 * 2 ^ (971 : Int) := by
    have hlt : Nat.factorial 170 < 2 ^ 49 * 2 ^ 971 := by decide +kernel
    have hcast : (n.factorial : ℚ) < (2 ^ 49 * 2 ^ 971 : Nat) :=
      Nat.cast_lt.mpr ((Nat.factorial_le hn).trans_lt hlt)
    rw [Nat.cast_mul, Nat.cast_pow, Nat.cast_pow, Nat.cast_ofNat] at hcast
    rw [zpow_ofNat]
    apply hcast
  have hunit : (0 : ℚ) < 2 ^ (971 : Int) := by positivity
  calc
    n.factorial * roundingFactor ^ n ≤ n.factorial * 2 := by gcongr
    _ < overflowLimit := by
      rw [overflowLimit]
      generalize (2 : ℚ) ^ (971 : Int) = unit at hunit hexact
      linarith

namespace FiniteProduct

/-- The product without factors. -/
theorem zero :
  FiniteProduct 0 1
  := by
  constructor
  · refine ⟨2 ^ 52, -52, by decide +kernel, by norm_num⟩
  · apply le_rfl
  · rw [Nat.factorial_zero, Nat.cast_one, pow_zero, mul_one]

/-- A further factor leaves a product finite up to `170!`, and does not make it smaller. -/
theorem succ {n : Nat} {v : ℚ} (h : FiniteProduct n v) (hn : n < 170) :
  ∃ r : ℚ, FiniteProduct (n + 1) r ∧ v ≤ r
  := by
  have hfactor : HasSize (floatOfNat (n + 1)) false (n + 1 : Nat) :=
    hasSize_floatOfNat n.succ_pos (by omega)
  have hfactorOne : (1 : ℚ) ≤ (n + 1 : Nat) := by exact_mod_cast n.succ_pos
  have hone := h.one_le
  have hexact : v * (n + 1 : Nat) ≤ (n + 1).factorial * roundingFactor ^ n := by
    rw [Nat.factorial_succ, Nat.cast_mul, mul_comm v, mul_assoc]
    gcongr
    apply h.le
  have hstep : (n + 1).factorial * roundingFactor ^ n
      ≤ (n + 1).factorial * roundingFactor ^ (n + 1) := by
    gcongr
    · norm_num [roundingFactor]
    · apply Nat.le_succ
  have hlt : v * (n + 1 : Nat) < overflowLimit :=
    lt_of_le_of_lt (hexact.trans hstep) (factorial_mul_lt_overflowLimit hn)
  obtain ⟨r, hr, hle, herror⟩ := h.hasMagnitude.exists_mul hfactor hfactorOne hlt
  refine ⟨r, ⟨hr, hone.trans hle, ?_⟩, hle⟩
  -- From one on the error of the rounding is relative.
  have hproduct : 1 ≤ v * (n + 1 : Nat) := one_le_mul_of_one_le_of_one_le hone hfactorOne
  calc
    r ≤ v * (n + 1 : Nat) * roundingFactor := by
      rw [abs_of_nonneg (by linarith : 0 ≤ v * (n + 1 : Nat))] at herror
      rw [roundingFactor]
      linarith [le_abs_self (r - v * (n + 1 : Nat))]
    _ ≤ (n + 1).factorial * roundingFactor ^ n * roundingFactor := by
      gcongr
      norm_num [roundingFactor]
    _ = (n + 1).factorial * roundingFactor ^ (n + 1) := by rw [pow_succ, mul_assoc]

/-- Further factors leave a product finite up to `170!`, and do not make it smaller. -/
theorem exists_of_le {m n : Nat} {v : ℚ} (h : FiniteProduct m v) (hmn : m ≤ n) (hn : n ≤ 170) :
  ∃ r : ℚ, FiniteProduct n r ∧ v ≤ r
  := by
  induction n, hmn using Nat.le_induction with
  | base => use v, h
  | succ n _ ih =>
    obtain ⟨r, hr, hle⟩ := ih (by omega)
    obtain ⟨s, hs, hle'⟩ := hr.succ (by omega)
    use s, hs, hle.trans hle'

end FiniteProduct

/-- Up to `170!` products are finite. -/
theorem exists_finiteProduct {n : Nat} (hn : n ≤ 170) :
  ∃ v : ℚ, FiniteProduct n v
  := by
  obtain ⟨v, hv, -⟩ := FiniteProduct.zero.exists_of_le n.zero_le hn
  exact ⟨v, hv⟩

/-! ### Infinite products -/

/-- From `171!` on products are infinite: further factors do not change an infinite product. -/
theorem fullProduct_eq_positiveInfinity {n : Nat} (hn : 171 ≤ n) (hlt : n < 2 ^ 64) :
  fullProduct n = positiveInfinity
  := by
  induction n, hn using Nat.le_induction with
  | base => decide +kernel
  | succ n _ ih =>
    obtain ⟨w, hw⟩ := exists_hasSize_floatOfNat n.succ_pos hlt
    rw [fullProduct, ih (by omega)]
    apply positiveInfinity_mul hw

/-- The product is infinite exactly from `171!` on. -/
theorem isInf_fullProduct_iff {n : Nat} (hlt : n < 2 ^ 64) :
  (fullProduct n).isInf = true ↔ 171 ≤ n
  := by
  constructor
  · intro hinf
    by_contra hsmall
    obtain ⟨v, hv⟩ := exists_finiteProduct (by omega : n ≤ 170)
    cases hinf.symm.trans hv.hasMagnitude.hasValue.isInf_isNaN.1
  · intro hn
    rw [fullProduct_eq_positiveInfinity hn hlt]
    rfl

/-- The product is always defined. -/
theorem isNaN_fullProduct {n : Nat} (hlt : n < 2 ^ 64) :
  (fullProduct n).isNaN = false
  := by
  rcases Nat.lt_or_ge 170 n with hlarge | hsmall
  · rw [fullProduct_eq_positiveInfinity hlarge hlt]
    rfl
  · obtain ⟨v, hv⟩ := exists_finiteProduct hsmall
    apply hv.hasMagnitude.hasValue.isInf_isNaN.2

/-- The product does not get smaller when factors are added. -/
theorem fullProduct_le {m n : Nat} (hmn : m ≤ n) (hlt : n < 2 ^ 64) :
  fullProduct m ≤ fullProduct n
  := by
  rcases Nat.lt_or_ge 170 n with hlarge | hsmall
  · rw [fullProduct_eq_positiveInfinity hlarge hlt]
    rcases Nat.lt_or_ge 170 m with hlarge' | hsmall'
    · rw [fullProduct_eq_positiveInfinity hlarge' (by omega)]
      decide +kernel
    · obtain ⟨v, hv⟩ := exists_finiteProduct hsmall'
      apply hv.hasMagnitude.hasValue.le_positiveInfinity
  · obtain ⟨v, hv⟩ := exists_finiteProduct (hmn.trans hsmall)
    obtain ⟨r, hr, hle⟩ := hv.exists_of_le hmn hsmall
    apply (hv.hasMagnitude.hasValue.le_iff hr.hasMagnitude.hasValue).mpr hle

/-! ### The product that stops early -/

/-- A product that stops once it is infinite has the same value as one that is taken to its end. -/
theorem productFrom_fullProduct (count : Nat) {n : Nat} (hlt : n + count < 2 ^ 64) :
  productFrom (fullProduct n) n count = fullProduct (n + count)
  := by
  induction count generalizing n with
  | zero => rfl
  | succ count ih =>
    change (if (fullProduct (n + 1)).isInf then fullProduct (n + 1)
      else productFrom (fullProduct (n + 1)) (n + 1) count) = _
    rw [← Nat.add_assoc, Nat.add_right_comm]
    split
    · -- The product stops here, and further factors would leave it infinite.
      rename_i hinf
      have hlarge := (isInf_fullProduct_iff (by omega)).mp hinf
      rw [fullProduct_eq_positiveInfinity hlarge (by omega),
        fullProduct_eq_positiveInfinity (by omega) (by omega)]
    · apply ih
      omega

/-- The factorial is the product taken to its end. -/
theorem factorial_eq_fullProduct {n : Nat} (hlt : n < 2 ^ 64) :
  factorial n = fullProduct n
  := by
  cases n with
  | zero => rfl
  | succ n =>
    have hone : fullProduct 1 = 1.0 := by decide +kernel
    rw [factorial, Nat.add_sub_cancel, ← hone, productFrom_fullProduct n (by omega), Nat.add_comm]

/-! ### The operation -/

/-- The factorial of a natural number of limited size. -/
theorem UnaryOp.apply_factorial_eq (mode : AngleMode) {x : Float} {n : Nat} (hx : HasValue x n)
    (hn : n ≤ wholeLimit) :
  UnaryOp.factorial.apply mode x = .ok (fullProduct n)
  := by
  have hlimit : wholeLimit < 2 ^ 64 := by decide
  rw [apply_factorial_of_le mode hx hn, factorial_eq_fullProduct (by omega)]

/-- The factorial of a natural number `n`, given as a number with this value, is the product
`1 * 2 * … * n` in double precision taken to its end.  It is defined, and infinite from `171` on; it
is the factorial of `n - 1` times `n`, and no factorial of a smaller number is above it. -/
theorem UnaryOp.apply_factorial (mode : AngleMode) {x : Float} {n : Nat} (hx : HasValue x n)
    (hn : n ≤ 2 ^ 63) :
  UnaryOp.factorial.apply mode x = .ok (fullProduct n) ∧
  (fullProduct n).isNaN = false ∧
  ((fullProduct n).isInf = true ↔ 171 ≤ n) ∧
  (1 ≤ n → n ≤ 2 ^ 53 →
    (∃ y : Float, HasValue y (n - 1 : Nat)) ∧
    ∀ y : Float, HasValue y (n - 1 : Nat) →
      ∃ q : Float, UnaryOp.factorial.apply mode y = .ok q ∧
        UnaryOp.factorial.apply mode x = .ok (q * x)) ∧
  ∀ (y : Float) (m : Nat), HasValue y m → m ≤ n →
    ∃ q : Float, UnaryOp.factorial.apply mode y = .ok q ∧ q ≤ fullProduct n
  := by
  have hlt : n < 2 ^ 64 := by omega
  refine ⟨apply_factorial_eq mode hx hn, isNaN_fullProduct hlt, isInf_fullProduct_iff hlt, ?_, ?_⟩
  · intro hpos hbits
    obtain ⟨k, rfl⟩ := Nat.exists_eq_add_of_le' hpos
    rw [Nat.add_sub_cancel]
    constructor
    · use floatOfNat k
      apply ((FitsMantissa.of_lt (by omega)).hasMagnitude (by omega)).hasValue
    · intro y hy
      have hk : k ≤ wholeLimit := le_trans (by omega) hn
      use fullProduct k, apply_factorial_eq mode hy hk
      rw [apply_factorial_eq mode hx hn, hx.eq_floatOfNat hpos hlt, fullProduct]
  · intro y m hy hmn
    use fullProduct m, apply_factorial_eq mode hy (hmn.trans hn)
    apply fullProduct_le hmn hlt

/-- The factorial of `171` is infinite, and it is the factorial of `170`, which is finite, times
`171`. -/
theorem UnaryOp.apply_factorial_oneHundredSeventyOne :
  HasValue 171.0 (171 : Nat) ∧ HasValue 170.0 (170 : Nat) ∧
  ∃ p q : Float, UnaryOp.factorial.apply .radians 171.0 = .ok p ∧ p.isInf = true ∧
    UnaryOp.factorial.apply .radians 170.0 = .ok q ∧ q.isInf = false ∧ q ≤ p ∧ p = q * 171.0
  := by
  have hx : HasValue 171.0 (171 : Nat) :=
    ⟨false, 171 * 2 ^ 45, -45, by decide +kernel, by norm_num⟩
  have hy : HasValue 170.0 (170 : Nat) :=
    ⟨false, 170 * 2 ^ 45, -45, by decide +kernel, by norm_num⟩
  obtain ⟨hp, -, hpInf, hstep, hle⟩ := apply_factorial .radians hx (by decide)
  obtain ⟨hq, -, hqInf, -, -⟩ := apply_factorial .radians hy (by decide)
  obtain ⟨r, hr, hproduct⟩ := (hstep (by decide) (by decide)).2 170.0 hy
  obtain ⟨s, hs, hrs⟩ := hle 170.0 170 hy (by decide)
  obtain rfl := Except.ok.inj (hq.symm.trans hr)
  obtain rfl := Except.ok.inj (hq.symm.trans hs)
  refine ⟨hx, hy, _, _, hp, hpInf.mpr le_rfl, hq, ?_, hrs, ?_⟩
  · rw [← Bool.not_eq_true, hqInf]
    decide
  · apply Except.ok.inj (hp.symm.trans hproduct)

end Calculator
