import Calculator.Proofs.Number.Order
import Calculator.Proofs.Number.Rounded

/-!
# Rounding keeps the order

Of two values the larger one does not go to the smaller number (`IsNearest.le_of_le`): between two
numbers the values up to the middle go to the lower one, and those from the middle on to the upper
one (`IsCanonical.middle_le`).  So a number does not get smaller when it is multiplied with a number
of at least one (`HasMagnitude.exists_mul`), and the numbers to which two values go are ordered as
the values are, also below zero and on both sides of it (`RoundsValue.le`).

* `positiveInfinity_mul`: a product with the infinite number stays infinite.
* `HasValue.le_positiveInfinity`: the infinite number is above all others.
-/

namespace Calculator

open Float.Model Float.Model.UnpackedFloat

/-! ### The order of rounded values -/

/-- The values above a number and those below a larger number meet in the middle at the nearest. -/
theorem IsCanonical.middle_le {m m' : Nat} {e e' : Int} (hc : IsCanonical m e)
    (hc' : IsCanonical m' e') (h : (m : ℚ) * 2 ^ e < m' * 2 ^ e') :
  (m + 1 / 2) * 2 ^ e ≤ (m' - gapBelow m' e') * 2 ^ e'
  := by
  have hpos : (0 : ℚ) < 2 ^ e := by positivity
  have hgap := gapBelow_le m' e'
  rcases lt_trichotomy e e' with hlt | rfl | hgt
  · -- A larger exponent is not the least one, so that the mantissa has all its bits.
    have hlow := hc.low
    have hnormal : 2 ^ 52 ≤ m' := hc'.normal.resolve_right (by omega)
    have hquarter : (2 : ℚ) ^ 52 - 1 / 4 ≤ m' - gapBelow m' e' := by
      rcases Nat.eq_or_lt_of_le hnormal with heq | hlarge
      · have hnext : gapBelow m' e' = 1 / 4 := if_pos ⟨heq.symm, by omega⟩
        rw [hnext, ← heq]
        push_cast
        apply le_rfl
      · have hcast : ((2 ^ 52 + 1 : Nat) : ℚ) ≤ m' := by exact_mod_cast hlarge
        push_cast at hcast
        linarith
    have hmantissa : (m : ℚ) + 1 ≤ 2 ^ 53 := by exact_mod_cast hc.lt
    calc
      (m + 1 / 2) * (2 : ℚ) ^ e ≤ (2 ^ 53 - 1 / 2) * 2 ^ e := by
        gcongr
        linarith
      _ = (2 ^ 52 - 1 / 4) * 2 ^ (e + (1 : Nat)) := by
        rw [zpow_two_add]
        ring
      _ ≤ (m' - gapBelow m' e') * 2 ^ e' := by
        gcongr
        · norm_num
        · apply hlt
  · have hlt : ((m + 1 : Nat) : ℚ) ≤ m' := by
      have hmm := lt_of_mul_lt_mul_right h (le_of_lt hpos)
      exact_mod_cast hmm
    push_cast at hlt
    gcongr
    linarith
  · have horder : ((compare e' e).then (compare m' m)).isLE = true := by
      rw [Int.compare_eq_lt.mpr hgt]
      rfl
    apply absurd h (not_lt.mpr (hc'.le_of_isLE hc horder))

/-- Of two values the larger one goes to the larger number, or both go to the same. -/
theorem IsNearest.le_of_le {v v' : ℚ} {m m' : Nat} {e e' : Int} (h : IsNearest v m e)
    (hc : IsCanonical m e) (h' : IsNearest v' m' e') (hc' : IsCanonical m' e') (hle : v ≤ v') :
  (m : ℚ) * 2 ^ e ≤ m' * 2 ^ e'
  := by
  by_contra hlt
  rw [not_le] at hlt
  -- Both values lie in the middle between the two numbers, where only one of them is the nearest.
  have heq : v = v' := by
    apply le_antisymm hle
    calc
      v' ≤ (m' + 1 / 2) * 2 ^ e' := h'.high
      _ ≤ (m - gapBelow m e) * 2 ^ e := hc'.middle_le hc hlt
      _ ≤ v := h.low
  have hm : 0 < m := by
    apply Nat.pos_of_ne_zero
    rintro rfl
    have hnonneg : (0 : ℚ) ≤ m' * 2 ^ e' := by positivity
    rw [Nat.cast_zero, zero_mul] at hlt
    linarith
  subst heq
  obtain ⟨rfl, rfl⟩ := h.unique hc hm h' hc'
  apply lt_irrefl _ hlt

/-- A number that is not negative does not get smaller when it is multiplied with a number of at least
one, and the product differs little from the exact one. -/
theorem HasMagnitude.exists_mul {x y : Float} {v w : ℚ} (hx : HasMagnitude x false v)
    (hy : HasSize y false w) (hw : 1 ≤ w) (hlt : v * w < overflowLimit) :
  ∃ r : ℚ, HasMagnitude (x * y) false r ∧ v ≤ r ∧ |r - v * w| ≤ |v * w| / 2 ^ 52 + 1 / 2 ^ 100
  := by
  have hround := hx.mul hy hw hlt
  have hvalue : RoundsValue (x * y) (v * w) := ⟨false, hround⟩
  obtain ⟨r, hr, herror⟩ := hvalue.exists_error
  obtain ⟨m, e, hread, hnearest⟩ := hround
  have hproduct : HasMagnitude (x * y) false (m * 2 ^ e) := ⟨m, e, hread, rfl⟩
  obtain rfl := hproduct.hasValue.unique hr
  refine ⟨_, hproduct, ?_, herror⟩
  have hle : v ≤ v * w := le_mul_of_one_le_right hx.nonneg hw
  obtain ⟨m', e', hread', rfl⟩ := hx
  apply (IsNearest.self m' e').le_of_le (Reading.isCanonical_of_ofFloat hread') hnearest
    (Reading.isCanonical_of_ofFloat hread) hle

/-! ### Values with signs -/

/-- What goes to zero does so with either sign. -/
theorem IsNearest.neg_zero {v : ℚ} (h : IsNearest v 0 (-1074)) :
  IsNearest (-v) 0 (-1074)
  := by
  have hgap : gapBelow 0 (-1074) = 1 / 2 := rfl
  obtain ⟨hlow, hhigh, -⟩ := h
  rw [hgap] at hlow
  constructor
  · rw [hgap]
    linarith
  · linarith
  · intro _
    rfl

/-- The number to which a value goes is as far from zero as the one to which its size goes. -/
theorem IsNearest.abs {v : ℚ} {m : Nat} {e : Int} (h : IsNearest v m e) (hc : IsCanonical m e) :
  IsNearest |v| m e
  := by
  rcases le_total 0 v with hv | hv
  · rw [abs_of_nonneg hv]
    apply h
  · obtain rfl := h.eq_zero_of_nonpos hv
    obtain rfl := hc.normal.resolve_left (by decide)
    rw [abs_of_nonpos hv]
    apply h.neg_zero

/-- The number to which a value goes: its size is the nearest one to the size of the value, and it
is not on the other side of zero. -/
theorem RoundsValue.exists_isNearest {x : Float} {t : ℚ} (h : RoundsValue x t) :
  ∃ (r : ℚ) (m : Nat) (e : Int), HasValue x r ∧ IsCanonical m e ∧ IsNearest |t| m e ∧
    |r| = m * 2 ^ e ∧ (0 ≤ t → 0 ≤ r) ∧ (t ≤ 0 → r ≤ 0)
  := by
  obtain ⟨negative, m, e, hread, hnearest⟩ := h
  have hc := Reading.isCanonical_of_ofFloat hread
  have hx : HasMagnitude x negative (m * 2 ^ e) := ⟨m, e, hread, rfl⟩
  have hnonneg : (0 : ℚ) ≤ m * 2 ^ e := by positivity
  refine ⟨_, m, e, hx.hasValue, hc, ?_, ?_, ?_, ?_⟩
  · have habs := hnearest.abs hc
    cases negative
    · apply habs
    · rw [if_pos rfl, abs_neg] at habs
      apply habs
  · cases negative
    · apply abs_of_nonneg hnonneg
    · apply (abs_neg _).trans (abs_of_nonneg hnonneg)
  · intro ht
    cases negative
    · apply hnonneg
    · obtain rfl := hnearest.eq_zero_of_nonpos (neg_nonpos.mpr ht)
      rw [Nat.cast_zero, zero_mul, if_pos rfl, neg_zero]
  · intro ht
    cases negative
    · obtain rfl := hnearest.eq_zero_of_nonpos ht
      rw [Nat.cast_zero, zero_mul, if_neg Bool.false_ne_true]
    · apply neg_nonpos.mpr hnonneg

/-- Of two values with signs the larger one goes to the larger number, or both go to the same. -/
theorem RoundsValue.le_of_le {x y : Float} {t u r s : ℚ} (hx : RoundsValue x t)
    (hy : RoundsValue y u) (hr : HasValue x r) (hs : HasValue y s) (hle : t ≤ u) :
  r ≤ s
  := by
  obtain ⟨r', m, e, hr', hc, hnearest, hsize, hpos, hneg⟩ := hx.exists_isNearest
  obtain ⟨s', m', e', hs', hc', hnearest', hsize', hpos', hneg'⟩ := hy.exists_isNearest
  obtain rfl := hr.unique hr'
  obtain rfl := hs.unique hs'
  rcases le_total 0 t with ht | ht
  · have hu := ht.trans hle
    rw [abs_of_nonneg ht] at hnearest
    rw [abs_of_nonneg hu] at hnearest'
    rw [abs_of_nonneg (hpos ht)] at hsize
    rw [abs_of_nonneg (hpos' hu)] at hsize'
    rw [hsize, hsize']
    apply hnearest.le_of_le hc hnearest' hc' hle
  · rcases le_total 0 u with hu | hu
    · apply (hneg ht).trans (hpos' hu)
    · rw [abs_of_nonpos ht] at hnearest
      rw [abs_of_nonpos hu] at hnearest'
      rw [abs_of_nonpos (hneg ht)] at hsize
      rw [abs_of_nonpos (hneg' hu)] at hsize'
      rw [← neg_le_neg_iff, hsize, hsize']
      apply hnearest'.le_of_le hc' hnearest hc (neg_le_neg hle)

/-- Numbers to which values go are ordered like the values. -/
theorem RoundsValue.le {x y : Float} {t u : ℚ} (hx : RoundsValue x t) (hy : RoundsValue y u)
    (hle : t ≤ u) :
  x ≤ y
  := by
  obtain ⟨r, hr, -⟩ := hx.exists_error
  obtain ⟨s, hs, -⟩ := hy.exists_error
  apply (hr.le_iff hs).mpr (hx.le_of_le hy hr hs hle)

/-- The value of a number goes to it. -/
theorem HasValue.rounds {x : Float} {v : ℚ} (h : HasValue x v) :
  RoundsValue x v
  := by
  obtain ⟨negative, m, e, hread, hv⟩ := h
  refine ⟨negative, m, e, hread, ?_⟩
  rw [← hv]
  apply IsNearest.self

/-! ### The infinite number -/

/-- The number to which values go that are too large. -/
def positiveInfinity : Float :=
  1.0 / 0.0

/-- A product of the infinite number with a positive number is infinite. -/
theorem positiveInfinity_mul {y : Float} {w : ℚ} (hy : HasSize y false w) :
  positiveInfinity * y = positiveInfinity
  := by
  obtain ⟨m, e, hread, hm, -⟩ := hy
  change Float.ofModel (Float.Model.pack (UnpackedFloat.mul Format.binary64
    positiveInfinity.toModel.unpack y.toModel.unpack)) = _
  rw [Reading.unpack_toModel hread, unpackedOf, dif_pos hm]
  rfl

/-- No finite number is above the infinite one. -/
theorem HasValue.le_positiveInfinity {x : Float} {v : ℚ} (h : HasValue x v) :
  x ≤ positiveInfinity
  := by
  obtain ⟨negative, m, e, hread, -⟩ := h
  have hle : x ≤ positiveInfinity
      ↔ (x.toModel.unpack.compare positiveInfinity.toModel.unpack).any (·.isLE) = true :=
    decide_eq_true_iff
  rw [hle, Reading.unpack_toModel hread, unpackedOf]
  split
  · rfl
  · rfl

/-- A number with a value is finite. -/
theorem HasValue.isFinite {x : Float} {v : ℚ} (h : HasValue x v) :
  x.isFinite = true
  := by
  obtain ⟨negative, m, e, hread, -⟩ := h
  change x.toModel.unpack.isFinite = true
  rw [Reading.unpack_toModel hread, unpackedOf]
  split <;> rfl

/-- A finite number is neither infinite nor undefined. -/
theorem HasValue.isInf_isNaN {x : Float} {v : ℚ} (h : HasValue x v) :
  x.isInf = false ∧ x.isNaN = false
  := by
  obtain ⟨negative, m, e, hread, -⟩ := h
  have hunpack := Reading.unpack_toModel hread
  change x.toModel.unpack.isInf = false ∧ x.toModel.unpack.isNaN = false
  rw [hunpack, unpackedOf]
  split
  · exact ⟨rfl, rfl⟩
  · exact ⟨rfl, rfl⟩

end Calculator
