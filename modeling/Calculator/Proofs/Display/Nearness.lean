import Calculator.Proofs.Display.Tolerance
import Calculator.Proofs.Number.Order
import Calculator.Proofs.Number.Rounded

/-!
# Nearness

What the tests of the display say about exact values.

* A number that is near to another one is finite (`isFinite_of_isNear`), and their values differ by
  little more than the tolerance (`abs_sub_lt_of_isNear`).
* `IsWithin ε x t`: the value of a finite number differs from `t` by at most `ε`.  A rounded product
  or quotient adds little to the error (`IsWithin.mul`, `IsWithin.div`), and so does nearness
  (`IsWithin.of_isNear`).
* A number whose value is less than a half away from an integer of limited size has this integer as
  its nearest one (`nearestInteger?_eq_some`), so that the numerator of a form to which a number is
  near is found (`nearestNumerator?_eq_some`).
-/

namespace Calculator

open Float.Model Float.Model.UnpackedFloat

/-! ### Distances -/

/-- The distance of a finite number from a value of limited size is in the range of the finite
numbers. -/
theorem HasValue.abs_sub_lt {x : Float} {v w : ℚ} (h : HasValue x v) (hw : |w| ≤ 2 ^ 64) :
  |v - w| < overflowLimit
  := by
  have hunit : (2 : ℚ) ^ (65 : Int) < 2 ^ (971 : Int) := zpow_two_lt_iff.mpr (by decide)
  have hpower : (2 : ℚ) ^ (65 : Int) = 2 * 2 ^ 64 := by norm_num
  have hlimit := h.abs_le
  rw [hpower] at hunit
  generalize (2 : ℚ) ^ (971 : Int) = unit at hunit hlimit
  calc
    |v - w| ≤ |v| + |w| := abs_sub v w
    _ < overflowLimit := by linarith

/-- The exact value of the tolerance. -/
def toleranceSize : ℚ :=
  7737125245533627 / 2 ^ 86

/-- The tolerance has its exact value. -/
theorem hasValue_tolerance :
  HasValue tolerance toleranceSize
  := by
  refine ⟨false, 7737125245533627, -86, by decide +kernel, ?_⟩
  norm_num [toleranceSize]

/-- The difference of what is not finite and anything is not finite. -/
theorem sub_of_not_isFinite {u : UnpackedFloat} (v : UnpackedFloat) (h : ¬u.isFinite = true) :
  u.sub Format.binary64 v = .notANumber ∨ ∃ s : Sign, u.sub Format.binary64 v = .infinity s
  := by
  cases u with
  | zero | finite => cases h rfl
  | notANumber => exact Or.inl rfl
  | infinity s =>
    cases v with
    | zero | finite => exact Or.inr ⟨s, rfl⟩
    | notANumber => exact Or.inl rfl
    | infinity s' =>
      cases s <;> cases s'
      · exact Or.inl rfl
      · exact Or.inr ⟨_, rfl⟩
      · exact Or.inr ⟨_, rfl⟩
      · exact Or.inl rfl

/-- A number that is near to another one is finite. -/
theorem isFinite_of_isNear {x y : Float} (h : isNear x y = true) :
  x.isFinite = true
  := by
  by_contra hinfinite
  have hnear : (Float.ofModel (Float.Model.abs (pack (UnpackedFloat.sub Format.binary64
      x.toModel.unpack y.toModel.unpack)))) < tolerance := of_decide_eq_true h
  rcases sub_of_not_isFinite y.toModel.unpack hinfinite with hsub | ⟨s, hsub⟩
  · rw [hsub] at hnear
    revert hnear
    decide +kernel
  · rw [hsub] at hnear
    revert hnear
    cases s <;> decide +kernel

/-- The values of numbers that are near to each other differ by no more than the tolerance and the
error of the comparison. -/
theorem abs_sub_lt_toleranceSize_of_isNear {x y : Float} {v w : ℚ} (hx : HasValue x v)
    (hy : HasValue y w) (hw : |w| ≤ 2 ^ 64) (h : isNear x y = true) :
  |v - w| < toleranceSize + 1 / 2 ^ 80
  := by
  obtain ⟨r, hr, herror⟩ := (hx.sub hy (hx.abs_sub_lt hw)).exists_error
  have hlt : |r| < toleranceSize :=
    (hr.hasValue_abs.lt_iff hasValue_tolerance).mp (of_decide_eq_true h)
  have htriangle : |v - w| ≤ |r| + |r - (v - w)| := by
    have hsum := abs_sub r (r - (v - w))
    rw [sub_sub_cancel] at hsum
    apply hsum
  rw [toleranceSize] at hlt ⊢
  linarith

/-- The values of numbers that are near to each other differ by little more than the tolerance. -/
theorem abs_sub_lt_of_isNear {x y : Float} {v w : ℚ} (hx : HasValue x v) (hy : HasValue y w)
    (hw : |w| ≤ 2 ^ 64) (h : isNear x y = true) :
  |v - w| < 1 / 2 ^ 32
  := by
  apply (abs_sub_lt_toleranceSize_of_isNear hx hy hw h).trans
  norm_num [toleranceSize]

/-! ### Values up to an error -/

/-- A finite number whose value differs from `t` by at most `ε`. -/
def IsWithin (ε : ℚ) (x : Float) (t : ℚ) : Prop :=
  ∃ v : ℚ, HasValue x v ∧ |v - t| ≤ ε

/-- A number has its own value. -/
theorem HasValue.isWithin {x : Float} {v : ℚ} (h : HasValue x v) :
  IsWithin 0 x v
  := by
  use v, h
  rw [sub_self, abs_zero]

namespace IsWithin

variable {ε δ s t w : ℚ} {x y : Float}

/-- The error may be taken larger. -/
theorem mono (h : IsWithin ε x t) (hle : ε ≤ δ) :
  IsWithin δ x t
  := by
  obtain ⟨v, hx, hv⟩ := h
  use v, hx, hv.trans hle

/-- Two values that a number nearly has differ by no more than both errors. -/
theorem abs_sub_le (hs : IsWithin ε x s) (ht : IsWithin δ x t) :
  |s - t| ≤ ε + δ
  := by
  obtain ⟨v, hx, hv⟩ := hs
  obtain ⟨v', hx', hv'⟩ := ht
  obtain rfl := hx.unique hx'
  have htriangle := abs_sub (v - t) (v - s)
  rw [sub_sub_sub_cancel_left] at htriangle
  linarith

/-- A rounding adds little to the error of a value of limited size. -/
theorem of_rounds (h : RoundsValue x s) (hs : |s - t| ≤ ε) (hε : ε ≤ 1) (ht : |t| ≤ 2 ^ 34) :
  IsWithin (ε + 1 / 2 ^ 17) x t
  := by
  obtain ⟨r, hr, herror⟩ := h.exists_error
  use r, hr
  have hsize := abs_add_le (s - t) t
  have htriangle := abs_add_le (r - s) (s - t)
  rw [sub_add_cancel] at hsize
  rw [sub_add_sub_cancel] at htriangle
  linarith

/-- Values of limited size are far below the limit from which on numbers are infinite. -/
theorem lt_overflowLimit (hs : |s - t| ≤ ε) (hε : ε ≤ 1) (ht : |t| ≤ 2 ^ 34) :
  |s| < overflowLimit
  := by
  have hsize := abs_add_le (s - t) t
  rw [sub_add_cancel] at hsize
  have hlimit : 2 ^ 34 + 1 < overflowLimit := by
    have hunit : (1 : ℚ) ≤ 2 ^ (971 : Int) := one_le_zpow₀ (by norm_num) (by decide)
    rw [overflowLimit]
    generalize (2 : ℚ) ^ (971 : Int) = unit at hunit
    linarith
  linarith

/-- The quotient of a number by one that is at least one. -/
theorem div (h : IsWithin ε x t) (hy : HasSize y false w) (hw : 1 ≤ w) (hε : ε ≤ 1)
    (ht : |t / w| ≤ 2 ^ 34) :
  IsWithin (ε + 1 / 2 ^ 17) (x / y) (t / w)
  := by
  obtain ⟨v, hx, hv⟩ := h
  have herror : |v / w - t / w| ≤ ε := by
    have hpos : 0 < w := by linarith
    rw [← sub_div, abs_div, abs_of_pos hpos]
    apply (div_le_self (abs_nonneg _) hw).trans hv
  apply of_rounds (hx.div hy (lt_overflowLimit herror hε ht)) herror hε ht

/-- The product of a number with one that is at least one. -/
theorem mul (h : IsWithin ε x t) (hy : HasSize y false w) (hw : 1 ≤ w) (hε : ε * w ≤ 1)
    (ht : |t * w| ≤ 2 ^ 34) :
  IsWithin (ε * w + 1 / 2 ^ 17) (x * y) (t * w)
  := by
  obtain ⟨v, hx, hv⟩ := h
  have herror : |v * w - t * w| ≤ ε * w := by
    have hpos : 0 < w := by linarith
    rw [← sub_mul, abs_mul, abs_of_pos hpos]
    gcongr
  apply of_rounds (hx.mul hy hw (lt_overflowLimit herror hε ht)) herror hε ht

/-- What is near to a number nearly has its value. -/
theorem of_isNear (hy : IsWithin ε y t) (h : isNear x y = true) (hε : ε ≤ 1)
    (ht : |t| ≤ 2 ^ 34) :
  IsWithin (ε + 1 / 2 ^ 32) x t
  := by
  obtain ⟨w, hy, hw⟩ := hy
  obtain ⟨v, hx⟩ := exists_hasValue (isFinite_of_isNear h)
  have hsize := abs_add_le (w - t) t
  rw [sub_add_cancel] at hsize
  have hnear := abs_sub_lt_of_isNear hx hy (by linarith) h
  use v, hx
  have htriangle := abs_add_le (v - w) (w - t)
  rw [sub_add_sub_cancel] at htriangle
  linarith

end IsWithin

/-! ### Nearest integers -/

/-- Integers that differ by less than one are equal. -/
theorem eq_of_abs_sub_lt_one {n n' : Int} (h : |(n : ℚ) - n'| < 1) :
  n = n'
  := by
  rw [← Int.cast_sub, ← Int.cast_abs, ← Int.cast_one, Int.cast_lt] at h
  apply sub_eq_zero.mp
  apply Int.abs_lt_one_iff.mp h

/-- A quotient is rounded to a natural number that is at most a half away. -/
theorem Rounding.abs_quotient_nearestAway_sub_le (negative : Bool) (n : Nat) {d : Nat}
    (hd : 0 < d) :
  |(Rounding.nearestAway.quotient negative n d : ℚ) - n / d| ≤ 1 / 2
  := by
  have hpos : (0 : ℚ) < d := by exact_mod_cast hd
  have hdivide := Nat.div_add_mod n d
  have hmod := Nat.mod_lt n hd
  have hbounds : 2 * (d * Rounding.nearestAway.quotient negative n d) ≤ 2 * n + d ∧
      2 * n ≤ 2 * (d * Rounding.nearestAway.quotient negative n d) + d := by
    rw [quotient]
    simp only [carries, decide_eq_true_eq]
    split
    · rw [Nat.mul_add]
      omega
    · omega
  have hlow : (2 * (d * Rounding.nearestAway.quotient negative n d) : ℚ) ≤ 2 * n + d := by
    exact_mod_cast hbounds.1
  have hhigh : (2 * n : ℚ) ≤ 2 * (d * Rounding.nearestAway.quotient negative n d) + d := by
    exact_mod_cast hbounds.2
  have hvalue : (n : ℚ) / d * d = n := div_mul_cancel₀ _ (ne_of_gt hpos)
  rw [abs_sub_le_iff]
  constructor <;> nlinarith

/-- A number goes to a whole number that is at most a half away. -/
theorem HasValue.whole_nearestAway {x : Float} {v : ℚ} (h : HasValue x v) :
  ∃ n : Int, HasValue (Rounding.nearestAway.whole x) n ∧ |n - v| ≤ 1 / 2
  := by
  obtain ⟨negative, m, e, hread, hv⟩ := id h
  have hm := (Reading.isCanonical_of_ofFloat hread).lt
  rw [Rounding.whole, hread]
  simp only
  rcases le_or_gt 0 e with he | he
  · obtain ⟨k, rfl⟩ := Int.eq_ofNat_of_zero_le he
    have hvalue : v = ((if negative then -(m * 2 ^ k : Nat) else (m * 2 ^ k : Nat) : Int) : ℚ) := by
      rw [eq_of_size_eq hv]
      cases negative <;> push_cast <;> rfl
    rw [if_pos he]
    refine ⟨_, hvalue ▸ h, ?_⟩
    rw [hvalue, sub_self, abs_zero]
    norm_num
  · have herror := Rounding.abs_quotient_nearestAway_sub_le negative m (scaledDenominator_pos e)
    have hrounded := (hasMagnitude_floatOfScaled negative
      (Rounding.nearestAway.quotient_lt negative hm he)).hasValue
    rw [mantissa_div_scaledDenominator m he] at herror
    rw [if_neg (not_le.mpr he), eq_of_size_eq hv]
    generalize Rounding.nearestAway.quotient negative m (scaledDenominator e) = n at herror hrounded
    use if negative then -n else n
    cases negative
    · use hrounded, herror
    · rw [if_pos rfl] at hrounded
      rw [if_pos rfl, if_pos rfl, Int.cast_neg, Int.cast_natCast]
      use hrounded
      rw [← neg_sub', abs_neg]
      apply herror

/-- The largest size of a numerator. -/
theorem hasValue_largestNumerator :
  HasValue 2147483647.0 (2147483647 : Nat)
  := by
  refine ⟨false, 9007199250546688, -22, by decide +kernel, by norm_num⟩

/-- An integer of limited size is the nearest one to a number that is less than a half away. -/
theorem nearestInteger?_eq_some {x : Float} {n : Int} {ε : ℚ} (h : IsWithin ε x n) (hε : ε < 1 / 2)
    (hn : n.natAbs ≤ 2147483647) :
  nearestInteger? x = some n
  := by
  obtain ⟨v, hx, hv⟩ := h
  obtain ⟨n', hwhole, herror⟩ := hx.whole_nearestAway
  have htriangle := abs_add_le (n' - v) (v - n)
  rw [sub_add_sub_cancel] at htriangle
  obtain rfl := eq_of_abs_sub_lt_one (lt_of_le_of_lt htriangle (by linarith))
  have hbound : |(n' : ℚ)| ≤ (2147483647 : Nat) := by
    rw [← Int.cast_abs, ← Nat.cast_natAbs]
    exact_mod_cast hn
  rw [nearestInteger?, boundedInteger?,
    if_pos ((hwhole.hasValue_abs.le_iff hasValue_largestNumerator).mpr hbound)]
  apply whole?_eq_some_iff.mpr
  use hwhole
  apply Nat.le_trans hn (by decide)

/-- The numerator of a form to which a number is near is found from what is nearly the numerator. -/
theorem nearestNumerator?_eq_some {form : Int → Nat → Form} {x scaled : Float} {d : Nat} {n : Int}
    {ε : ℚ} (hscaled : IsWithin ε scaled n) (hε : ε < 1 / 2) (hn : n.natAbs ≤ 2147483647)
    (hnear : isNear x (form n d).value = true) :
  nearestNumerator? form x scaled d = some n
  := by
  rw [nearestNumerator?, nearestInteger?_eq_some hscaled hε hn]
  apply Option.filter_eq_some_iff.mpr
  use rfl, hnear

end Calculator
