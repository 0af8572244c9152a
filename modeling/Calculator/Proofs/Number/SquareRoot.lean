import Calculator.Proofs.Number.Size

/-!
# Square roots

The square root of a number is computed from the whole root of its shifted mantissa, and rounded
once.  A rational number stands for the exact root here, which is irrational in general: the one
that lies between the same natural numbers as the root, and goes to the same number.

* `exists_locates_sqrt`: what the remainder says about the root of a natural number.
* `sq_le_iff_of_locates`: the shifted mantissa has the same natural numbers below its root.
* `HasSize.sqrt`: the square root is the number to which such a value goes.
* `HasSize.toUInt64`: the whole part of a number.
* `HasSize.toUInt64_sqrt`: so the whole part of the square root of a natural number is the whole
  root, or one more where rounding reaches the next natural number.
-/

namespace Calculator

open Float.Model Float.Model.UnpackedFloat

/-! ### Whole roots -/

/-- Where the root of a natural number lies next to the whole root, by the remainder. -/
def rootAccuracy (n : Nat) : Accuracy :=
  if n - n.sqrt * n.sqrt = 0 then .exact
  else .inexact (if n - n.sqrt * n.sqrt ≤ n.sqrt then .lt else .gt)

/-- Some rational number lies where the root of a natural number does. -/
theorem exists_locates_sqrt (n : Nat) :
  ∃ q : ℚ, Locates q n.sqrt (rootAccuracy n)
  := by
  unfold rootAccuracy
  split
  · use n.sqrt
    rfl
  · split
    · use n.sqrt + 1 / 4
      constructor <;> linarith
    · use n.sqrt + 3 / 4
      constructor <;> linarith

/-- A value lies between the same natural numbers as the whole number below it. -/
theorem Locates.natCast_le_iff {t : ℚ} {n : Nat} {accuracy : Accuracy} (h : Locates t n accuracy)
    (k : Nat) :
  (k : ℚ) ≤ t ↔ k ≤ n
  := by
  constructor
  · intro hk
    have hlt : (k : ℚ) < (n + 1 : Nat) := by
      push_cast
      linarith [h.lt]
    rw [Nat.cast_lt] at hlt
    omega
  · intro hk
    apply le_trans _ h.le
    exact_mod_cast hk

/-! ### The rounded root -/

/-- The exponent of the root, before it is rounded. -/
def rootExponent (m : Nat) (e : Int) : Int :=
  min (e / 2) (max ((m.log2 + 1 + e + 1) / 2 - 53) (-1074))

/-- The mantissa of which the whole root is taken. -/
def rootMantissa (m : Nat) (e : Int) : Nat :=
  m <<< (e - 2 * rootExponent m e).toNat

/-- What is rounded for the root. -/
theorem sqrtCore_eq (m : Nat) (e : Int) :
  sqrtCore Format.binary64 m e
    = ((rootMantissa m e).sqrt, rootExponent m e, rootAccuracy (rootMantissa m e))
  := rfl

/-- The mantissa of which the root is taken has the same value with twice the exponent. -/
theorem rootMantissa_mul (m : Nat) (e : Int) :
  (rootMantissa m e : ℚ) * (2 ^ rootExponent m e) ^ 2 = m * 2 ^ e
  := by
  have hle : 2 * rootExponent m e ≤ e := by
    unfold rootExponent
    omega
  have hsum : rootExponent m e + rootExponent m e + ((e - 2 * rootExponent m e).toNat : Int) = e := by
    omega
  rw [rootMantissa, Nat.shiftLeft_eq, Nat.cast_mul, Nat.cast_pow, Nat.cast_ofNat, sq, mul_assoc,
    ← zpow_add₀ (by norm_num), ← zpow_two_add, hsum]

/-- The whole root has at least fifty-three bits. -/
theorem le_sqrt_rootMantissa {m : Nat} {e : Int} (hm : 0 < m) (he : -1074 ≤ e) :
  2 ^ 52 ≤ (rootMantissa m e).sqrt
  := by
  have hbits : 104 ≤ m.log2 + (e - 2 * rootExponent m e).toNat := by
    unfold rootExponent
    omega
  rw [Nat.le_sqrt, rootMantissa, Nat.shiftLeft_eq]
  calc
    2 ^ 52 * 2 ^ 52 = 2 ^ 104 := (Nat.pow_add 2 52 52).symm
    _ ≤ 2 ^ (m.log2 + (e - 2 * rootExponent m e).toNat) := Nat.pow_le_pow_right (by decide) hbits
    _ = 2 ^ m.log2 * 2 ^ (e - 2 * rootExponent m e).toNat := Nat.pow_add 2 _ _
    _ ≤ m * 2 ^ (e - 2 * rootExponent m e).toNat :=
      Nat.mul_le_mul_right _ (Nat.log2_self_le (Nat.ne_of_gt hm))

/-- A value that lies where the root does lies between the same natural numbers as the root, if the
exponent is not positive. -/
theorem sq_le_iff_of_locates {m : Nat} {e : Int} {q : ℚ} {accuracy : Accuracy}
    (hq : Locates q (rootMantissa m e).sqrt accuracy) (hexponent : rootExponent m e ≤ 0) (k : Nat) :
  (k : ℚ) ^ 2 ≤ m * 2 ^ e ↔ k ≤ q * 2 ^ rootExponent m e
  := by
  obtain ⟨count, hcount⟩ := Int.exists_eq_neg_ofNat hexponent
  have hpos : (0 : ℚ) < 2 ^ count := by positivity
  have hscale : (2 : ℚ) ^ rootExponent m e = 1 / 2 ^ count := by
    rw [hcount, zpow_neg, zpow_natCast, one_div]
  have hmantissa := rootMantissa_mul m e
  rw [hscale] at hmantissa ⊢
  rw [mul_one_div, le_div_iff₀ hpos, ← hmantissa, div_pow, one_pow, mul_one_div,
    le_div_iff₀ (by positivity), ← mul_pow]
  have hcast : (k : ℚ) * 2 ^ count = (k * 2 ^ count : Nat) := by push_cast; rfl
  rw [hcast, hq.natCast_le_iff, Nat.le_sqrt, ← sq]
  norm_cast

/-- The exponent of the root of a number below `2 ^ 64` is not positive. -/
theorem rootExponent_nonpos {m : Nat} {e : Int} (hm : 0 < m) (hv : (m : ℚ) * 2 ^ e < 2 ^ 64) :
  rootExponent m e ≤ 0
  := by
  have hbits : (2 : ℚ) ^ (e + m.log2) < 2 ^ (64 : Int) := by
    calc
      (2 : ℚ) ^ (e + m.log2) = 2 ^ m.log2 * 2 ^ e := zpow_two_add e m.log2
      _ ≤ m * 2 ^ e := by
        gcongr
        exact_mod_cast Nat.log2_self_le (Nat.ne_of_gt hm)
      _ < 2 ^ (64 : Int) := by exact_mod_cast hv
  have hlt := zpow_two_lt_iff.mp hbits
  unfold rootExponent
  omega

/-- The square root of a number is the number nearest to a value that lies where the root does. -/
theorem ofFloat_sqrt {x : Float} {m m' : Nat} {e e' : Int} {q : ℚ}
    (hread : Reading.ofFloat x = .finite false m e) (hm : 0 < m)
    (hq : Locates q (rootMantissa m e).sqrt (rootAccuracy (rootMantissa m e)))
    (hc' : IsCanonical m' e') (hm' : 0 < m')
    (hnearest : IsNearest (q * 2 ^ rootExponent m e) m' e') :
  Reading.ofFloat x.sqrt = .finite false m' e'
  := by
  have hvalue : q * 2 ^ rootExponent m e / 2 ^ rootExponent m e = q :=
    mul_div_cancel_right₀ q (by positivity)
  have htarget : rootExponent m e ≤ Format.binary64.targetExponent
      (totalExponent (rootMantissa m e).sqrt (rootExponent m e)) := by
    have hroot := le_sqrt_rootMantissa hm (Reading.isCanonical_of_ofFloat hread).low
    have hlog := (Nat.le_log2 (by omega)).mpr hroot
    rw [targetExponent_binary64]
    apply le_max_of_le_left
    omega
  have hsqrt : UnpackedFloat.sqrt Format.binary64 (.finite (signOf false) m e hm)
      = .finite (signOf false) m' e' hm' := by
    simp only [signOf, UnpackedFloat.sqrt, sqrtCore_eq]
    apply roundWithAccuracy_eq hc' hm' hnearest (hvalue.symm ▸ hq) htarget
  have hpack := Reading.ofFloat_pack false hc'
  rw [unpackedOf, dif_pos hm', ← hsqrt] at hpack
  change Reading.ofFloat (.ofModel (Float.Model.pack
    (UnpackedFloat.sqrt Format.binary64 x.toModel.unpack))) = _
  rw [Reading.unpack_toModel hread, unpackedOf, dif_pos hm]
  apply hpack

/-- The square root of a number is the number to which a value goes that lies between the same
natural numbers as the exact root. -/
theorem HasSize.sqrt {x : Float} {v : ℚ} (h : HasSize x false v) (hlow : 1 ≤ v)
    (hhigh : v < 2 ^ 64) :
  ∃ s : ℚ, RoundsSize x.sqrt false s ∧ ∀ k : Nat, (k : ℚ) ^ 2 ≤ v ↔ k ≤ s
  := by
  obtain ⟨m, e, hread, hm, rfl⟩ := h
  obtain ⟨q, hq⟩ := exists_locates_sqrt (rootMantissa m e)
  have hbetween := sq_le_iff_of_locates hq (rootExponent_nonpos hm hhigh)
  have hone : (2 : ℚ) ^ (-1022 : Int) ≤ q * 2 ^ rootExponent m e := by
    have hroot := (hbetween 1).mp (by simpa using hlow)
    rw [Nat.cast_one] at hroot
    apply le_trans _ hroot
    apply zpow_le_one_of_nonpos₀ (by norm_num) (by norm_num)
  have htop : q * 2 ^ rootExponent m e < (2 : ℚ) ^ (1023 : Int) := by
    have hroot : ¬((2 ^ 32 : Nat) : ℚ) ≤ q * 2 ^ rootExponent m e := by
      rw [← hbetween (2 ^ 32), not_le]
      apply lt_of_lt_of_le hhigh
      norm_num
    apply lt_trans (not_le.mp hroot)
    rw [Nat.cast_pow, ← zpow_natCast]
    apply zpow_two_lt_iff.mpr
    decide
  obtain ⟨m', e', hc', hm', hnearest⟩ := exists_isNearest hone htop
  use q * 2 ^ rootExponent m e
  exact ⟨⟨m', e', ofFloat_sqrt hread hm hq hc' hm' hnearest, hm', hnearest⟩, hbetween⟩

/-! ### Whole parts -/

/-- A positive number is cut off to its whole part. -/
theorem roundToInt_eq_floor (m : Nat) (e : Int) :
  roundToInt .positive m e = ⌊(m : ℚ) * 2 ^ e⌋₊
  := by
  have hshifted : Locates ((m : ℚ) * 2 ^ e / 2 ^ (e - ((e - 0).toNat : Int)))
      (m <<< (e - 0).toNat) .exact := by
    have hsum : e - ((e - 0).toNat : Int) + ((e - 0).toNat : Int) = e := by omega
    have hvalue : (m : ℚ) * 2 ^ e
        = m * 2 ^ (e - 0).toNat * 2 ^ (e - ((e - 0).toNat : Int)) := by
      rw [mul_assoc, ← zpow_two_add, hsum]
    rw [Locates, Nat.shiftLeft_eq, hvalue, mul_div_cancel_right₀ _ (by positivity)]
    push_cast
    rfl
  obtain ⟨em, hshift, hem⟩ := hshifted.shiftToExponent (by omega : _ ≤ (0 : Int))
  rw [zpow_zero, div_one] at hem
  have hfloor : ⌊(m : ℚ) * 2 ^ e⌋₊ = em.mantissa := by
    rw [Nat.floor_eq_iff (by positivity)]
    exact ⟨hem.le, hem.lt⟩
  rw [roundToInt, decreaseExponent]
  simp only [hshift, hfloor]
  rfl

/-- A positive number below `2 ^ 64` is cast to its whole part. -/
theorem HasSize.toUInt64 {x : Float} {v : ℚ} (h : HasSize x false v) (hv : v < 2 ^ 64) :
  x.toUInt64.toNat = ⌊v⌋₊
  := by
  obtain ⟨m, e, hread, hm, rfl⟩ := h
  have hlt : ⌊(m : ℚ) * 2 ^ e⌋₊ < UInt64.size := by
    rw [Nat.floor_lt (by positivity)]
    exact_mod_cast hv
  have hcast : x.toUInt64 = UInt64.ofNatClamp (roundToInt .positive m e).toNat := by
    change UnpackedFloat.toUInt64 x.toModel.unpack = _
    rw [Reading.unpack_toModel hread, unpackedOf, dif_pos hm]
    rfl
  rw [hcast, roundToInt_eq_floor, Int.toNat_natCast, UInt64.ofNatClamp, dif_pos hlt]
  rfl

namespace IsNearest

/-- A natural number is not above the number nearest to a value that it is not above. -/
theorem natCast_le {v : ℚ} {m : Nat} {e : Int} (h : IsNearest v m e) (he : e ≤ 0) {k : Nat}
    (hk : k ≤ v) :
  (k : ℚ) ≤ m * 2 ^ e
  := by
  obtain ⟨count, hcount⟩ := Int.exists_eq_neg_ofNat he
  have hpos : (0 : ℚ) < 2 ^ count := by positivity
  have hhigh := le_trans hk h.high
  rw [hcount, zpow_neg, zpow_natCast, ← div_eq_mul_inv, le_div_iff₀ hpos] at hhigh ⊢
  have hlt : ((k * 2 ^ count : Nat) : ℚ) < (m + 1 : Nat) := by
    push_cast
    linarith
  rw [Nat.cast_lt] at hlt
  exact_mod_cast Nat.le_of_lt_succ hlt

/-- A natural number is not below the number nearest to a value that it is not below. -/
theorem le_natCast {v : ℚ} {m : Nat} {e : Int} (h : IsNearest v m e) (he : e ≤ 0) {k : Nat}
    (hk : v ≤ k) :
  (m : ℚ) * 2 ^ e ≤ k
  := by
  obtain ⟨count, hcount⟩ := Int.exists_eq_neg_ofNat he
  have hpos : (0 : ℚ) < 2 ^ count := by positivity
  have hlow := le_trans h.le hk
  rw [hcount, zpow_neg, zpow_natCast, ← div_eq_mul_inv, div_le_iff₀ hpos] at hlow ⊢
  have hlt : (m : ℚ) < (k * 2 ^ count + 1 : Nat) := by
    push_cast
    linarith
  rw [Nat.cast_lt] at hlt
  exact_mod_cast Nat.le_of_lt_succ hlt

end IsNearest

/-- The whole part of the square root of a natural number is the whole root, or one more. -/
theorem HasSize.toUInt64_sqrt {x : Float} {n : Nat} (h : HasSize x false n) (hpos : 0 < n)
    (hlt : n < 2 ^ 64) :
  n.sqrt ≤ x.sqrt.toUInt64.toNat ∧ x.sqrt.toUInt64.toNat ≤ n.sqrt + 1
  := by
  obtain ⟨s, ⟨m, e, hread, hm, hnearest⟩, hbetween⟩ :=
    h.sqrt (by exact_mod_cast hpos) (by exact_mod_cast hlt)
  have hlow : (n.sqrt : ℚ) ≤ s := by
    rw [← hbetween]
    exact_mod_cast Nat.sqrt_le' n
  have hhigh : s < (n.sqrt + 1 : Nat) := by
    rw [← not_le, ← hbetween, not_le]
    exact_mod_cast Nat.lt_succ_sqrt' n
  have hone : 1 ≤ s := by
    apply le_trans _ hlow
    exact_mod_cast Nat.sqrt_pos.mpr hpos
  have he : e ≤ 0 := by
    have hbits : (2 : ℚ) ^ (e + 51) < 2 ^ (32 : Int) := by
      calc
        (2 : ℚ) ^ (e + 51) ≤ s :=
          hnearest.zpow_le (hnearest.normal (Reading.isCanonical_of_ofFloat hread) hone).2
        _ < (n.sqrt + 1 : Nat) := hhigh
        _ ≤ 2 ^ (32 : Int) := by exact_mod_cast Nat.sqrt_lt'.mpr hlt
    have hexponent := zpow_two_lt_iff.mp hbits
    omega
  have hroot : HasSize x.sqrt false (m * 2 ^ e) := ⟨m, e, hread, hm, rfl⟩
  have hle := hnearest.natCast_le he hlow
  have hge := hnearest.le_natCast he (le_of_lt hhigh)
  have hsmall : (m : ℚ) * 2 ^ e < 2 ^ 64 := by
    apply lt_of_le_of_lt hge
    have hsqrt : n.sqrt < 2 ^ 32 := Nat.sqrt_lt'.mpr hlt
    exact_mod_cast (by omega : n.sqrt + 1 < 2 ^ 64)
  rw [hroot.toUInt64 hsmall]
  use Nat.le_floor hle
  apply Nat.floor_le_of_le hge

end Calculator
