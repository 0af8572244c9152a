import Calculator.Operation.Apply
import Calculator.Proofs.Number.Overflow

/-!
# Means

The mean is half of a sum.  Where the sum is finite, the mean lies between the operands, although
the sum and its half are rounded: rounding keeps the order, and twice an operand is held exactly or
lies beyond the finite numbers (`HasValue.exists_double`).  Where the sum is too large, so is the
mean, and it lies above both operands, or below both (`BinaryOp.apply_mean_between`).

* `HasValue.exists_apply_min`, `HasValue.exists_apply_max`: the lesser and the larger operand.
* `HasValue.double_le`, `HasValue.le_double`: a rounded value stays on its side of twice a number.
-/

namespace Calculator

/-! ### The lesser and the larger operand -/

/-- The lesser of two finite operands. -/
theorem HasValue.exists_apply_min {x y : Float} {v w : ℚ} (hx : HasValue x v) (hy : HasValue y w) :
  ∃ z : Float, BinaryOp.min.apply x y = .ok z ∧ HasValue z (min v w)
  := by
  rw [BinaryOp.apply, hx.isInf_isNaN.2, if_neg Bool.false_ne_true]
  refine ⟨_, rfl, ?_⟩
  split
  · rename_i hlt
    rw [min_eq_right ((hy.lt_iff hx).mp hlt).le]
    apply hy
  · rename_i hle
    rw [hy.lt_iff hx, not_lt] at hle
    rw [min_eq_left hle]
    apply hx

/-- The larger of two finite operands. -/
theorem HasValue.exists_apply_max {x y : Float} {v w : ℚ} (hx : HasValue x v) (hy : HasValue y w) :
  ∃ z : Float, BinaryOp.max.apply x y = .ok z ∧ HasValue z (max v w)
  := by
  rw [BinaryOp.apply, hx.isInf_isNaN.2, if_neg Bool.false_ne_true]
  refine ⟨_, rfl, ?_⟩
  split
  · rename_i hlt
    rw [max_eq_right ((hx.lt_iff hy).mp hlt).le]
    apply hy
  · rename_i hle
    rw [hx.lt_iff hy, not_lt] at hle
    rw [max_eq_left hle]
    apply hx

/-! ### Twice a number -/

/-- Twice a mantissa is a mantissa, unless the exponent is the largest one. -/
theorem IsCanonical.exists_double {m : Nat} {e : Int} (hc : IsCanonical m e) (he : e < 971) :
  ∃ (m' : Nat) (e' : Int), IsCanonical m' e' ∧ (m' : ℚ) * 2 ^ e' = 2 * (m * 2 ^ e)
  := by
  obtain ⟨hlt, hlow, -, hnormal⟩ := hc
  rcases Nat.lt_or_ge m (2 ^ 52) with hsmall | hbit
  · use 2 * m, e, ⟨by omega, hlow, by omega, by omega⟩
    push_cast
    ring
  · use m, e + (1 : Nat), ⟨hlt, by omega, by omega, Or.inl hbit⟩
    rw [zpow_two_add]
    ring

/-- Twice a number is held exactly, or it lies beyond the finite numbers. -/
theorem HasValue.exists_double {x : Float} {v : ℚ} (h : HasValue x v) :
  (∃ y : Float, HasValue y (2 * v)) ∨ overflowLimit ≤ |2 * v|
  := by
  obtain ⟨negative, m, e, hread, hv⟩ := h
  have hc := Reading.isCanonical_of_ofFloat hread
  have habs := abs_eq_of_size_eq (by positivity) hv
  rcases lt_or_ge e 971 with he | he
  · left
    obtain ⟨m', e', hc', hdouble⟩ := hc.exists_double he
    refine ⟨_, negative, m', e', Reading.ofFloat_pack negative hc', ?_⟩
    rw [hdouble, hv]
    cases negative
    · rfl
    · apply mul_neg
  · right
    obtain rfl : e = 971 := le_antisymm hc.high he
    have hbit : (2 ^ 52 : ℚ) ≤ m := by exact_mod_cast hc.normal.resolve_right (by decide)
    rw [abs_mul, abs_two, habs, overflowLimit, ← mul_assoc]
    gcongr
    linarith

section

variable {x s : Float} {v t r : ℚ}

/-- What is at least twice a number goes to a number that is so, too. -/
theorem HasValue.double_le (hx : HasValue x v) (hs : RoundsValue s t) (hr : HasValue s r)
    (hlt : |t| < overflowLimit) (hle : 2 * v ≤ t) :
  2 * v ≤ r
  := by
  rcases hx.exists_double with ⟨y, hy⟩ | hlarge
  · apply hy.rounds.le_of_le hs hy hr hle
  · rcases le_abs.mp hlarge with hpos | hneg
    · linarith [le_abs_self t]
    · linarith [neg_abs_le r, hr.abs_lt]

/-- What is at most twice a number goes to a number that is so, too. -/
theorem HasValue.le_double (hx : HasValue x v) (hs : RoundsValue s t) (hr : HasValue s r)
    (hlt : |t| < overflowLimit) (hle : t ≤ 2 * v) :
  r ≤ 2 * v
  := by
  rcases hx.exists_double with ⟨y, hy⟩ | hlarge
  · apply hs.le_of_le hy.rounds hr hy hle
  · rcases le_abs.mp hlarge with hpos | hneg
    · linarith [le_abs_self r, hr.abs_lt]
    · linarith [neg_abs_le t]

end

/-! ### The mean -/

/-- Two, as it is written in a program. -/
theorem hasSize_two :
  HasSize 2.0 false 2
  := ⟨2 ^ 52, -51, by decide +kernel, by decide, by norm_num⟩

/-- Half of a finite number is the exact half, rounded. -/
theorem HasValue.rounds_half {x : Float} {v : ℚ} (h : HasValue x v) :
  RoundsValue (x / 2.0) (v / 2)
  := by
  apply h.div hasSize_two
  rw [abs_div, abs_two]
  linarith [abs_nonneg v, h.abs_lt]

/-- Half of a sum that is finite lies between the numbers that are added. -/
theorem HasValue.le_half_add_le {x y low high : Float} {v w : ℚ} (hx : HasValue x v)
    (hy : HasValue y w) (hlow : HasValue low (min v w)) (hhigh : HasValue high (max v w))
    (hlt : |v + w| < overflowLimit) :
  ((x + y) / 2.0).isFinite = true ∧ low ≤ (x + y) / 2.0 ∧ (x + y) / 2.0 ≤ high
  := by
  have hsum := hx.add hy hlt
  obtain ⟨r, hr, -⟩ := hsum.exists_error
  have hhalf := hr.rounds_half
  have hleft : 2 * min v w ≤ r := by
    apply hlow.double_le hsum hr hlt
    linarith [min_le_left v w, min_le_right v w]
  have hright : r ≤ 2 * max v w := by
    apply hhigh.le_double hsum hr hlt
    linarith [le_max_left v w, le_max_right v w]
  obtain ⟨q, hq, -⟩ := hhalf.exists_error
  refine ⟨hq.isFinite, ?_, ?_⟩
  · apply hlow.rounds.le hhalf
    linarith
  · apply hhalf.le hhigh.rounds
    linarith

/-- Half of a sum that is too large is the infinite number of its sign. -/
theorem HasValue.half_add_overflow {x y : Float} {v w : ℚ} {negative : Bool} (hx : HasValue x v)
    (hy : HasValue y w) (h : overflowLimit ≤ if negative then -(v + w) else v + w) :
  (x + y) / 2.0 = signedInfinity negative
  := by
  rw [hx.add_overflow hy h, signedInfinity_div_two]

/-- The mean of two finite numbers is finite exactly if their sum is below the limit from which on
values go to the infinite numbers, and then it lies between its operands.  From the limit on it is
the infinite number with the sign of the sum, although the exact mean is finite. -/
theorem BinaryOp.apply_mean_between {x y : Float} {v w : ℚ} (hx : HasValue x v)
    (hy : HasValue y w) :
  ∃ low mean high : Float, BinaryOp.min.apply x y = .ok low ∧ BinaryOp.mean.apply x y = .ok mean ∧
    BinaryOp.max.apply x y = .ok high ∧
    (mean.isFinite = true ↔ |v + w| < overflowLimit) ∧
    (mean.isFinite = true → low ≤ mean ∧ mean ≤ high) ∧
    (overflowLimit ≤ v + w → mean = positiveInfinity) ∧
    (v + w ≤ -overflowLimit → mean = -positiveInfinity)
  := by
  obtain ⟨low, hmin, hlow⟩ := hx.exists_apply_min hy
  obtain ⟨high, hmax, hhigh⟩ := hx.exists_apply_max hy
  have hpositive : overflowLimit ≤ v + w → (x + y) / 2.0 = positiveInfinity := by
    intro hlimit
    have hmean : (x + y) / 2.0 = signedInfinity false := hx.half_add_overflow hy hlimit
    apply hmean
  have hnegative : v + w ≤ -overflowLimit → (x + y) / 2.0 = -positiveInfinity := by
    intro hlimit
    have hmean : (x + y) / 2.0 = signedInfinity true :=
      hx.half_add_overflow hy (le_neg_of_le_neg hlimit)
    apply hmean
  have hfinite : ((x + y) / 2.0).isFinite = true ↔ |v + w| < overflowLimit := by
    constructor
    · intro hfinite
      by_contra hlimit
      rcases le_abs.mp (not_lt.mp hlimit) with hlarge | hsmall
      · rw [hpositive hlarge] at hfinite
        cases hfinite
      · rw [hnegative (le_neg_of_le_neg hsmall)] at hfinite
        cases hfinite
    · intro hlt
      apply (hx.le_half_add_le hy hlow hhigh hlt).1
  refine ⟨low, _, high, hmin, rfl, hmax, hfinite, ?_, hpositive, hnegative⟩
  intro hmean
  apply (hx.le_half_add_le hy hlow hhigh (hfinite.mp hmean)).2

/-- The mean of the largest number and itself is infinite, and not this number. -/
theorem BinaryOp.apply_mean_between_largest :
  HasValue 1.7976931348623157e308 (overflowLimit - 1 / 2 * 2 ^ (971 : Int)) ∧
  BinaryOp.mean.apply 1.7976931348623157e308 1.7976931348623157e308 = .ok positiveInfinity ∧
  BinaryOp.max.apply 1.7976931348623157e308 1.7976931348623157e308 = .ok 1.7976931348623157e308
  := by
  have hx : HasValue 1.7976931348623157e308 (overflowLimit - 1 / 2 * 2 ^ (971 : Int)) := by
    refine ⟨false, 2 ^ 53 - 1, 971, by decide +kernel, ?_⟩
    rw [if_neg Bool.false_ne_true, overflowLimit, ← sub_mul]
    norm_num only
  have hlarge : overflowLimit ≤ overflowLimit - 1 / 2 * 2 ^ (971 : Int)
      + (overflowLimit - 1 / 2 * 2 ^ (971 : Int)) := by
    have hunit : (0 : ℚ) < 2 ^ (971 : Int) := by positivity
    rw [overflowLimit]
    generalize (2 : ℚ) ^ (971 : Int) = unit at hunit
    linarith
  obtain ⟨low, mean, high, -, hmean, -, -, -, hinfinite, -⟩ := apply_mean_between hx hx
  refine ⟨hx, ?_, ?_⟩
  · rw [hmean, hinfinite hlarge]
  · simp only [apply, ite_self]

end Calculator
