import Calculator.Number.Rounding
import Calculator.Proofs.Number.Size

/-!
# Exact values

`HasMagnitude x negative v` says which sign and which exact size a finite number has, and
`HasValue x v` which exact value; both admit zeros, and a zero has either sign.

* A sign and a size determine a number (`HasMagnitude.eq`), so a number is its own rounding to a
  whole number exactly if its value is whole (`Rounding.whole_eq_self_iff`).
* `whole?_eq_some_iff`, `whole?_eq_none_iff`: what counts as whole is what has a whole value of
  limited size.
* Natural numbers with at most fifty-three significant bits are held exactly
  (`FitsMantissa.hasMagnitude`), also beyond fifty-three bits.  The whole values of numbers are of
  this kind (`HasMagnitude.fitsMantissa`), and so are their divisors (`FitsMantissa.of_dvd`).
-/

namespace Calculator

open Float.Model Float.Model.UnpackedFloat

/-! ### Signs, sizes and values -/

/-- A finite number with a sign and an exact size, which may be zero. -/
def HasMagnitude (x : Float) (negative : Bool) (v : ℚ) : Prop :=
  ∃ (m : Nat) (e : Int), Reading.ofFloat x = .finite negative m e ∧ (m : ℚ) * 2 ^ e = v

/-- A finite number with an exact value. -/
def HasValue (x : Float) (v : ℚ) : Prop :=
  ∃ negative : Bool, HasMagnitude x negative (if negative then -v else v)

/-- A size is not negative. -/
theorem HasMagnitude.nonneg {x : Float} {negative : Bool} {v : ℚ} (h : HasMagnitude x negative v) :
  0 ≤ v
  := by
  obtain ⟨m, e, -, rfl⟩ := h
  positivity

/-- A positive size. -/
theorem HasMagnitude.hasSize {x : Float} {negative : Bool} {v : ℚ} (h : HasMagnitude x negative v)
    (hv : 0 < v) :
  HasSize x negative v
  := by
  obtain ⟨m, e, hread, rfl⟩ := h
  refine ⟨m, e, hread, ?_, rfl⟩
  apply Nat.pos_of_ne_zero
  rintro rfl
  rw [Nat.cast_zero, zero_mul] at hv
  apply lt_irrefl _ hv

/-- A finite number has one size. -/
theorem HasMagnitude.unique {x : Float} {negative : Bool} {v w : ℚ} (hv : HasMagnitude x negative v)
    (hw : HasMagnitude x negative w) :
  v = w
  := by
  obtain ⟨m, e, hread, rfl⟩ := hv
  obtain ⟨m', e', hread', rfl⟩ := hw
  cases hread.symm.trans hread'
  rfl

/-- A positive size is a size. -/
theorem HasSize.hasMagnitude {x : Float} {negative : Bool} {v : ℚ} (h : HasSize x negative v) :
  HasMagnitude x negative v
  := by
  obtain ⟨m, e, hread, -, hv⟩ := h
  use m, e, hread, hv

/-- What a zero is read as. -/
theorem HasMagnitude.ofFloat_eq_zero {x : Float} {negative : Bool} (h : HasMagnitude x negative 0) :
  Reading.ofFloat x = .finite negative 0 (-1074)
  := by
  obtain ⟨m, e, hread, hv⟩ := h
  have hm : m = 0 := by
    rcases mul_eq_zero.mp hv with hm | he
    · exact_mod_cast hm
    · cases zpow_ne_zero e (by norm_num) he
  subst hm
  have he := (Reading.isCanonical_of_ofFloat hread).normal.resolve_left (by decide)
  rw [hread, he]

/-- A finite number is determined by its sign and its size. -/
theorem HasMagnitude.eq {x y : Float} {negative : Bool} {v : ℚ} (hx : HasMagnitude x negative v)
    (hy : HasMagnitude y negative v) :
  x = y
  := by
  rcases hx.nonneg.eq_or_lt with rfl | hv
  · apply Reading.eq_of_ofFloat hx.ofFloat_eq_zero hy.ofFloat_eq_zero
  · apply (hx.hasSize hv).rounds.eq (hy.hasSize hv).rounds

/-- A sign and a size make a value. -/
theorem HasMagnitude.hasValue {x : Float} {negative : Bool} {v : ℚ}
    (h : HasMagnitude x negative v) :
  HasValue x (if negative then -v else v)
  := by
  use negative
  cases negative
  · apply h
  · rw [if_pos rfl, if_pos rfl, neg_neg]
    apply h

/-- A finite number has one value. -/
theorem HasValue.unique {x : Float} {v w : ℚ} (hv : HasValue x v) (hw : HasValue x w) :
  v = w
  := by
  obtain ⟨negative, m, e, hread, hv⟩ := hv
  obtain ⟨negative', m', e', hread', hw⟩ := hw
  cases hread.symm.trans hread'
  cases negative
  · apply hv.symm.trans hw
  · apply neg_injective (hv.symm.trans hw)

/-- A finite number has a value. -/
theorem exists_hasValue {x : Float} (h : x.isFinite = true) :
  ∃ v : ℚ, HasValue x v
  := by
  obtain ⟨negative, m, e, hread⟩ := Reading.exists_finite_of_isFinite h
  have hx : HasMagnitude x negative (m * 2 ^ e) := ⟨m, e, hread, rfl⟩
  use if negative then -(m * 2 ^ e) else m * 2 ^ e
  apply hx.hasValue

/-- A signed size as a value. -/
theorem eq_of_size_eq {negative : Bool} {size v : ℚ} (h : size = if negative then -v else v) :
  v = if negative then -size else size
  := by
  cases negative
  · apply h.symm
  · rw [h, if_pos rfl, if_pos rfl, neg_neg]

/-- A size without mantissa is that of zero. -/
theorem eq_zero_of_size_eq {negative : Bool} {e : Int} {v : ℚ}
    (h : ((0 : Nat) : ℚ) * 2 ^ e = if negative then -v else v) :
  v = 0
  := by
  rw [eq_of_size_eq h, Nat.cast_zero, zero_mul, neg_zero, ite_self]

/-- The mantissa of a value other than zero is positive. -/
theorem pos_of_size_eq {negative : Bool} {m : Nat} {e : Int} {v : ℚ}
    (h : (m : ℚ) * 2 ^ e = if negative then -v else v) (hv : v ≠ 0) :
  0 < m
  := by
  apply Nat.pos_of_ne_zero
  rintro rfl
  apply hv (eq_zero_of_size_eq h)

/-- The size that a value has up to its sign. -/
theorem abs_eq_of_size_eq {negative : Bool} {size v : ℚ} (h0 : 0 ≤ size)
    (h : size = if negative then -v else v) :
  |v| = size
  := by
  rw [← abs_of_nonneg h0, h]
  split
  · apply (abs_neg v).symm
  · rfl

/-- A number with a positive value has the positive sign. -/
theorem HasValue.hasSize {x : Float} {v : ℚ} (h : HasValue x v) (hv : 0 < v) :
  HasSize x false v
  := by
  obtain ⟨negative, hx⟩ := h
  cases negative
  · apply hx.hasSize hv
  · have hnonneg := hx.nonneg
    rw [if_pos rfl] at hnonneg
    linarith

/-- The size of a number with a value that is not negative. -/
theorem HasValue.abs {x : Float} {v : ℚ} (h : HasValue x v) (hv : 0 ≤ v) :
  HasMagnitude x.abs false v
  := by
  obtain ⟨negative, m, e, hread, hvalue⟩ := h
  refine ⟨m, e, Reading.ofFloat_abs hread, ?_⟩
  cases negative
  · apply hvalue
  · have hnonneg : (0 : ℚ) ≤ m * 2 ^ e := by positivity
    rw [if_pos rfl] at hvalue
    linarith

/-- The size of a finite number has the size of its value. -/
theorem HasValue.hasValue_abs {x : Float} {v : ℚ} (h : HasValue x v) :
  HasValue x.abs |v|
  := by
  obtain ⟨negative, m, e, hread, hv⟩ := h
  have hsize := abs_eq_of_size_eq (by positivity) hv
  have habs : HasMagnitude x.abs false |v| := ⟨m, e, Reading.ofFloat_abs hread, hsize.symm⟩
  apply habs.hasValue

/-- A number with a value that is not negative is equal to its size; they differ in the sign bit if
the number is the negative zero. -/
theorem HasValue.abs_beq {x : Float} {v : ℚ} (h : HasValue x v) (hv : 0 ≤ v) :
  (x.abs == x) = true
  := by
  obtain ⟨negative, m, e, hread, hvalue⟩ := h
  have hbeq : (unpackedOf false m e).beq (unpackedOf negative m e) = true := by
    rcases Nat.eq_zero_or_pos m with rfl | hm
    · rfl
    · cases negative
      · rw [unpackedOf, dif_pos hm]
        simp [UnpackedFloat.beq, UnpackedFloat.compare, signOf]
      · have hpos : (0 : ℚ) < m * 2 ^ e := by positivity
        rw [if_pos rfl] at hvalue
        linarith
  rw [← Reading.unpack_toModel (Reading.ofFloat_abs hread), ← Reading.unpack_toModel hread] at hbeq
  apply hbeq

/-- Zero, as it is written in a program. -/
theorem hasMagnitude_zero :
  HasMagnitude 0.0 false 0
  := by
  refine ⟨0, -1074, by decide +kernel, ?_⟩
  rw [Nat.cast_zero, zero_mul]

/-- A number with a value that is not negative is not below zero. -/
theorem HasValue.not_lt_zero {x : Float} {v : ℚ} (h : HasValue x v) (hv : 0 ≤ v) :
  ¬x < 0.0
  := by
  obtain ⟨negative, m, e, hread, hvalue⟩ := h
  intro hlt
  have hlt : (unpackedOf negative m e).lt (unpackedOf false 0 (-1074)) = true := by
    rw [← Reading.unpack_toModel hread, ← Reading.unpack_toModel hasMagnitude_zero.ofFloat_eq_zero]
    change decide (x.toModel < (0.0 : Float).toModel) = true at hlt
    apply of_decide_eq_true hlt
  rcases Nat.eq_zero_or_pos m with rfl | hm
  · cases hlt
  · rw [unpackedOf, dif_pos hm] at hlt
    cases negative
    · cases hlt
    · have hpos : (0 : ℚ) < m * 2 ^ e := by positivity
      rw [if_pos rfl] at hvalue
      linarith

/-- A number with a negative value is below zero. -/
theorem HasValue.lt_zero {x : Float} {v : ℚ} (h : HasValue x v) (hv : v < 0) :
  x < 0.0
  := by
  obtain ⟨negative, m, e, hread, hvalue⟩ := h
  have hnonneg : (0 : ℚ) ≤ m * 2 ^ e := by positivity
  cases negative
  · rw [if_neg Bool.false_ne_true] at hvalue
    linarith
  · have hm : 0 < m := by
      apply Nat.pos_of_ne_zero
      rintro rfl
      rw [if_pos rfl, Nat.cast_zero, zero_mul] at hvalue
      linarith
    have hlt : (unpackedOf true m e).lt (unpackedOf false 0 (-1074)) = true := by
      rw [unpackedOf, dif_pos hm]
      rfl
    rw [← Reading.unpack_toModel hread, ← Reading.unpack_toModel hasMagnitude_zero.ofFloat_eq_zero]
      at hlt
    change decide (x.toModel < (0.0 : Float).toModel) = true
    apply decide_eq_true hlt

/-! ### Whole values -/

/-- What counts as whole has a whole value of limited size, and nothing else counts as whole. -/
theorem whole?_eq_some_iff {x : Float} {n : Int} :
  whole? x = some n ↔ HasValue x n ∧ n.natAbs ≤ wholeLimit
  := by
  rw [whole?]
  constructor
  · intro h
    split at h
    · rename_i negative m e hread
      split at h
      · rename_i k hscaled
        simp only [Option.ite_none_right_eq_some, Option.some.injEq] at h
        obtain ⟨hle, rfl⟩ := h
        have hx : HasMagnitude x negative k := ⟨m, e, hread, value_of_scaledNat? hscaled⟩
        constructor
        · have hvalue := hx.hasValue
          cases negative
          · apply hvalue
          · rw [if_pos rfl] at hvalue ⊢
            rw [Int.cast_neg, Int.cast_natCast]
            apply hvalue
        · cases negative <;> simpa using hle
      · cases h
    · cases h
  · rintro ⟨⟨negative, m, e, hread, hvalue⟩, hle⟩
    have hsize : (m : ℚ) * 2 ^ e = n.natAbs := by
      rw [Nat.cast_natAbs, Int.cast_abs]
      apply (abs_eq_of_size_eq (by positivity) hvalue).symm
    rw [hread]
    simp only [scaledNat?_of_value hsize, if_pos hle]
    congr 1
    rw [hsize] at hvalue
    have hcast : ((n.natAbs : Int) : ℚ) = if negative then -(n : ℚ) else n := by
      rw [Int.cast_natCast]
      apply hvalue
    cases negative
    · apply Int.cast_injective hcast
    · have hneg : (n.natAbs : Int) = -n := by
        apply Int.cast_injective (α := ℚ)
        rw [hcast, Int.cast_neg, if_pos rfl]
      rw [if_pos rfl, hneg, neg_neg]

/-- A finite number does not count as whole if its value is not whole or too large. -/
theorem whole?_eq_none_iff {x : Float} {v : ℚ} (h : HasValue x v) :
  whole? x = none ↔ ¬((∃ n : Int, v = n) ∧ |v| ≤ wholeLimit)
  := by
  constructor
  · rintro hnone ⟨⟨n, rfl⟩, hle⟩
    have hlimit : n.natAbs ≤ wholeLimit := by
      rw [← Int.cast_abs, ← Nat.cast_natAbs] at hle
      exact_mod_cast hle
    cases hnone.symm.trans (whole?_eq_some_iff.mpr ⟨h, hlimit⟩)
  · intro hlarge
    apply Option.eq_none_iff_forall_ne_some.mpr
    intro n hn
    obtain ⟨hvalue, hle⟩ := whole?_eq_some_iff.mp hn
    obtain rfl := h.unique hvalue
    apply hlarge
    use ⟨n, rfl⟩
    rw [← Int.cast_abs, ← Nat.cast_natAbs]
    exact_mod_cast hle

/-- Natural numbers of limited size are in the range of the normal numbers. -/
theorem natCast_mem_range {n : Nat} (hpos : 0 < n) (hlt : n < 2 ^ 128) :
  2 ^ (-1022 : Int) ≤ (n : ℚ) ∧ (n : ℚ) < 2 ^ (1023 : Int)
  := by
  have hone : (1 : ℚ) ≤ n := by exact_mod_cast hpos
  have hlarge : (n : ℚ) < 2 ^ (128 : Int) := by exact_mod_cast hlt
  constructor
  · apply le_trans _ hone
    apply zpow_le_one_of_nonpos₀ (by norm_num) (by norm_num)
  · apply lt_trans hlarge
    apply zpow_two_lt_iff.mpr
    decide

/-- A positive natural number of at most sixty-four bits is rounded to a positive number. -/
theorem exists_hasSize_floatOfNat {n : Nat} (hpos : 0 < n) (hlt : n < 2 ^ 64) :
  ∃ w : ℚ, HasSize (floatOfNat n) false w
  := by
  obtain ⟨hlow, hhigh⟩ := natCast_mem_range hpos (by omega)
  obtain ⟨m, e, hc, hm, hnearest⟩ := exists_isNearest hlow hhigh
  use m * 2 ^ e, m, e, ofFloat_floatOfNat hpos hlt hc hm hnearest, hm

/-- A natural number of at most fifty-three bits with a sign is held exactly. -/
theorem hasMagnitude_floatOfScaled (negative : Bool) {n : Nat} (hn : n < 2 ^ 53) :
  HasMagnitude (floatOfScaled negative n 0) negative n
  := by
  rcases Nat.eq_zero_or_pos n with rfl | hpos
  · refine ⟨0, -1074, ?_, by rw [Nat.cast_zero, zero_mul]⟩
    cases negative <;> decide +kernel
  · have hsize := hasSize_floatOfNat hpos hn
    have hone : HasSize (powerOfTwo 0) false 1 :=
      ⟨2 ^ 52, -52, by decide +kernel, by decide, by norm_num⟩
    obtain ⟨hlow, hhigh⟩ := natCast_mem_range hpos (by omega)
    rw [← mul_one (n : ℚ)] at hlow hhigh
    have hproduct := hsize.mul hone le_rfl hlow hhigh
    rw [mul_one] at hproduct
    rw [floatOfScaled, hproduct.eq hsize.rounds]
    cases negative
    · apply hsize.hasMagnitude
    · apply hsize.neg.hasMagnitude

/-- A quotient without remainder is not rounded. -/
theorem Rounding.quotient_mul (direction : Rounding) (negative : Bool) (n : Nat) {d : Nat}
    (hd : 0 < d) :
  direction.quotient negative (n * d) d = n
  := by
  have hne : d ≠ 0 := Nat.ne_of_gt hd
  rw [quotient, Nat.mul_mod_left, Nat.mul_div_cancel n hd]
  cases direction <;> simp [carries, hne]

/-- The rounding of a quotient is at most one more than the whole quotient. -/
theorem Rounding.quotient_le (direction : Rounding) (negative : Bool) (n d : Nat) :
  direction.quotient negative n d ≤ n / d + 1
  := by
  rw [quotient]
  split <;> omega

/-- A mantissa with a negative exponent is rounded to an integer of no more than fifty-three
bits. -/
theorem Rounding.quotient_lt (direction : Rounding) (negative : Bool) {m : Nat} {e : Int}
    (hm : m < 2 ^ 53) (he : e < 0) :
  direction.quotient negative m (scaledDenominator e) < 2 ^ 53
  := by
  have hhalf : m / scaledDenominator e ≤ m / 2 := by
    apply Nat.div_le_div_left _ (by decide)
    apply Nat.le_self_pow
    omega
  have hle := direction.quotient_le negative m (scaledDenominator e)
  omega

/-- The value of a mantissa with a negative exponent as a quotient. -/
theorem mantissa_div_scaledDenominator (m : Nat) {e : Int} (he : e < 0) :
  (m : ℚ) / scaledDenominator e = m * 2 ^ e
  := by
  have hnumerator : scaledNumerator m e = m := by
    rw [scaledNumerator, Int.toNat_of_nonpos (le_of_lt he)]
    apply Nat.mul_one
  rw [← scaledNumerator_div_scaledDenominator, hnumerator]

/-- A mantissa with a negative exponent and a whole value is a multiple of the denominator. -/
theorem mantissa_eq_mul_scaledDenominator {m n : Nat} {e : Int} (he : e < 0)
    (h : (m : ℚ) * 2 ^ e = n) :
  m = n * scaledDenominator e
  := by
  have hpos : (scaledDenominator e : ℚ) ≠ 0 := by
    exact_mod_cast Nat.ne_of_gt (scaledDenominator_pos e)
  rw [← mantissa_div_scaledDenominator m he, div_eq_iff hpos] at h
  exact_mod_cast h

/-- A number is its own rounding to a whole number exactly if its size is whole. -/
theorem Rounding.whole_eq_self_iff (direction : Rounding) {x : Float} {negative : Bool} {v : ℚ}
    (h : HasMagnitude x negative v) :
  direction.whole x = x ↔ ∃ n : Nat, v = n
  := by
  obtain ⟨m, e, hread, hvalue⟩ := id h
  have hm := (Reading.isCanonical_of_ofFloat hread).lt
  rw [whole, hread]
  simp only
  rcases le_or_gt 0 e with he | he
  · rw [if_pos he]
    obtain ⟨k, rfl⟩ := Int.eq_ofNat_of_zero_le he
    constructor
    · intro _
      use m * 2 ^ k
      rw [← hvalue]
      push_cast
      rfl
    · intro _
      rfl
  · rw [if_neg (not_le.mpr he)]
    constructor
    · intro hself
      have hrounded := hasMagnitude_floatOfScaled negative (direction.quotient_lt negative hm he)
      rw [hself] at hrounded
      use direction.quotient negative m (scaledDenominator e), h.unique hrounded
    · rintro ⟨n, rfl⟩
      have hmul := mantissa_eq_mul_scaledDenominator he hvalue
      have hle := Nat.le_mul_of_pos_right n (scaledDenominator_pos e)
      rw [hmul, direction.quotient_mul negative n (scaledDenominator_pos e)]
      apply (hasMagnitude_floatOfScaled negative (by omega)).eq h

/-! ### Significant bits -/

/-- A natural number with at most fifty-three significant bits. -/
def FitsMantissa (n : Nat) : Prop :=
  ∃ m k : Nat, m < 2 ^ 53 ∧ n = m * 2 ^ k

namespace FitsMantissa

/-- A natural number of at most fifty-three bits has no more significant bits. -/
theorem of_lt {n : Nat} (h : n < 2 ^ 53) :
  FitsMantissa n
  := ⟨n, 0, h, (Nat.mul_one n).symm⟩

/-- A power of two adds no significant bits. -/
theorem mul_two_pow {n : Nat} (h : FitsMantissa n) (k : Nat) :
  FitsMantissa (n * 2 ^ k)
  := by
  obtain ⟨m, j, hm, rfl⟩ := h
  use m, j + k, hm
  rw [Nat.pow_add, Nat.mul_assoc]

/-- The remainder by a power of two has no more significant bits. -/
theorem mod_two_pow {n : Nat} (h : FitsMantissa n) (k : Nat) :
  FitsMantissa (n % 2 ^ k)
  := by
  obtain ⟨m, j, hm, rfl⟩ := h
  rcases Nat.le_total k j with hle | hle
  · have hdvd : 2 ^ k ∣ m * 2 ^ j := dvd_mul_of_dvd_right (pow_dvd_pow 2 hle) m
    rw [Nat.mod_eq_zero_of_dvd hdvd]
    apply of_lt (by decide)
  · obtain ⟨i, rfl⟩ := Nat.exists_eq_add_of_le' hle
    rw [Nat.pow_add, Nat.mul_mod_mul_right]
    use m % 2 ^ i, j, Nat.lt_of_le_of_lt (Nat.mod_le m _) hm

/-- The whole quotient by a power of two has no more significant bits. -/
theorem div_two_pow {n : Nat} (h : FitsMantissa n) (k : Nat) :
  FitsMantissa (n / 2 ^ k)
  := by
  obtain ⟨m, j, hm, rfl⟩ := h
  rcases Nat.le_total k j with hle | hle
  · obtain ⟨i, rfl⟩ := Nat.exists_eq_add_of_le' hle
    rw [Nat.pow_add, ← Nat.mul_assoc, Nat.mul_div_cancel _ (Nat.two_pow_pos k)]
    use m, i, hm
  · obtain ⟨i, rfl⟩ := Nat.exists_eq_add_of_le' hle
    rw [Nat.pow_add, Nat.mul_div_mul_right _ _ (Nat.two_pow_pos j)]
    apply of_lt (Nat.lt_of_le_of_lt (Nat.div_le_self m _) hm)

/-- A divisor has no more significant bits. -/
theorem of_dvd {n d : Nat} (h : FitsMantissa n) (hn : 0 < n) (hd : d ∣ n) :
  FitsMantissa d
  := by
  obtain ⟨m, k, hm, rfl⟩ := h
  obtain ⟨a, b, ha, hb, rfl⟩ := Nat.dvd_mul.mp hd
  obtain ⟨j, -, rfl⟩ := (Nat.dvd_prime_pow Nat.prime_two).mp hb
  have hpos : 0 < m := Nat.pos_of_mul_pos_right hn
  use a, j, Nat.lt_of_le_of_lt (Nat.le_of_dvd hpos ha) hm

end FitsMantissa

/-- The whole value of a number has at most fifty-three significant bits. -/
theorem HasMagnitude.fitsMantissa {x : Float} {negative : Bool} {n : Nat}
    (h : HasMagnitude x negative n) :
  FitsMantissa n
  := by
  obtain ⟨m, e, hread, hvalue⟩ := h
  have hm := (Reading.isCanonical_of_ofFloat hread).lt
  rcases lt_or_ge e 0 with he | he
  · apply FitsMantissa.of_lt
    have hmul := mantissa_eq_mul_scaledDenominator he hvalue
    have hle := Nat.le_mul_of_pos_right n (scaledDenominator_pos e)
    omega
  · obtain ⟨k, rfl⟩ := Int.eq_ofNat_of_zero_le he
    use m, k, hm
    exact_mod_cast hvalue.symm

/-- A natural number of at most sixty-four bits with at most fifty-three significant ones is held
exactly. -/
theorem FitsMantissa.hasMagnitude {n : Nat} (h : FitsMantissa n) (hlt : n < 2 ^ 64) :
  HasMagnitude (floatOfNat n) false n
  := by
  rcases Nat.eq_zero_or_pos n with rfl | hpos
  · refine ⟨0, -1074, by decide +kernel, by rw [Nat.cast_zero, zero_mul]⟩
  · obtain ⟨m, k, hm, rfl⟩ := h
    obtain ⟨m', e, hread, -, hvalue⟩ :=
      ofFloat_floatOfNat_mul (Nat.pos_of_mul_pos_right hpos) hm hlt
    use m', e, hread, hvalue

/-- A number with a positive natural value is the one for its value. -/
theorem HasValue.eq_floatOfNat {x : Float} {n : Nat} (hx : HasValue x n) (hpos : 0 < n)
    (hlt : n < 2 ^ 64) :
  x = floatOfNat n
  := by
  have hsize := (hx.hasSize (by exact_mod_cast hpos)).hasMagnitude
  apply hsize.eq (hsize.fitsMantissa.hasMagnitude hlt)

end Calculator
