import Calculator.Proofs.Number.Bits

/-!
# Rounding to the nearest number

The arithmetic of `Float` computes a mantissa, an exponent and an accuracy, and rounds them
once.  `Locates t n accuracy` is what a mantissa and its accuracy say about an exact value `t`,
and `IsNearest v m e` says that a value lies in the interval of those that go to `m * 2 ^ e`,
which below a power of two is narrower than above it.

* Shifting to the right keeps what is known about the value (`Locates.shiftRight`), and in the
  end the accuracy decides which whole number is the nearest (`Locates.roundToNearestEven`).
* The exponent that rounding aims at is that of the nearest number, or the one before it
  (`IsNearest.target`), and in the second case rounding carries to a further bit.
* So what is rounded is the nearest number (`roundWithAccuracy_eq`).
-/

namespace Calculator

open Float.Model Float.Model.UnpackedFloat

/-! ### Rounding to whole numbers -/

/-- Where a value lies between a natural number and the next one. -/
def Locates (t : ℚ) (n : Nat) : Accuracy → Prop
  | .exact => t = n
  | .inexact .lt => n < t ∧ t < n + 1 / 2
  | .inexact .eq => t = n + 1 / 2
  | .inexact .gt => n + 1 / 2 < t ∧ t < n + 1

/-- A whole number that is nearest to a value, the even one in the middle. -/
structure RoundsTo (t : ℚ) (n : Nat) : Prop where
  low : n - 1 / 2 ≤ t
  high : t ≤ n + 1 / 2
  tie : t = n - 1 / 2 ∨ t = n + 1 / 2 → n % 2 = 0

namespace Locates

/-- A value is at least the number that it lies above. -/
theorem le {t : ℚ} {n : Nat} {accuracy : Accuracy} (h : Locates t n accuracy) :
  n ≤ t
  := by
  match accuracy, h with
  | .exact, h => apply le_of_eq (Eq.symm h)
  | .inexact .lt, h => apply le_of_lt h.1
  | .inexact .eq, h => rw [h]; linarith
  | .inexact .gt, h => linarith [h.1]

/-- A value is below the number after the one that it lies above. -/
theorem lt {t : ℚ} {n : Nat} {accuracy : Accuracy} (h : Locates t n accuracy) :
  t < n + 1
  := by
  match accuracy, h with
  | .exact, h => rw [h]; linarith
  | .inexact .lt, h => linarith [h.2]
  | .inexact .eq, h => rw [h]; linarith
  | .inexact .gt, h => apply h.2

/-- The nearest number is one of the two next to a value. -/
theorem eq_or_eq_succ {t : ℚ} {m n : Nat} {accuracy : Accuracy} (h : Locates t m accuracy)
    (hn : RoundsTo t n) :
  n = m ∨ n = m + 1
  := by
  have hlow : (m : ℚ) < (n + 1 : Nat) := by
    push_cast
    linarith [h.le, hn.high]
  have hhigh : (n : ℚ) < (m + 2 : Nat) := by
    push_cast
    linarith [h.lt, hn.low]
  rw [Nat.cast_lt] at hlow hhigh
  omega

/-- The accuracy decides which number is the nearest. -/
theorem roundToNearestEven {t : ℚ} {m n : Nat} {accuracy : Accuracy} (h : Locates t m accuracy)
    (hn : RoundsTo t n) :
  accuracy.roundToNearestEven m = n
  := by
  have hnext := h.eq_or_eq_succ hn
  obtain ⟨hlow, hhigh, htie⟩ := hn
  rcases hnext with rfl | rfl
  · match accuracy, h with
    | .exact, _ | .inexact .lt, _ => rfl
    | .inexact .eq, h =>
      have heven := htie (Or.inr h)
      simp [Accuracy.roundToNearestEven, heven]
    | .inexact .gt, h => linarith [h.1]
  · push_cast at hlow hhigh htie
    match accuracy, h with
    | .exact, h =>
      rw [Locates] at h
      linarith
    | .inexact .lt, h => linarith [h.2]
    | .inexact .eq, h =>
      rw [Locates] at h
      have heven := htie (Or.inl (by linarith))
      simp only [Accuracy.roundToNearestEven]
      omega
    | .inexact .gt, _ => rfl

/-- The residual bits say whether a value is exact. -/
theorem eq_or_lt {t : ℚ} {m : Nat} {roundBit stickyBit : Bool}
    (h : Locates t m (ExtendedMantissa.mk m roundBit stickyBit).accuracy) :
  (roundBit || stickyBit) = false ∧ t = m ∨ (roundBit || stickyBit) = true ∧ m < t
  := by
  cases roundBit <;> cases stickyBit
  · left
    use rfl, h
  · right
    use rfl, h.1
  · right
    use rfl
    have heq : t = m + 1 / 2 := h
    linarith
  · right
    use rfl
    linarith [h.1]

/-- A shift by one bit keeps what is known about the value. -/
theorem shiftRightOne {t : ℚ} {em : ExtendedMantissa} (h : Locates t em.mantissa em.accuracy) :
  Locates (t / 2) em.shiftRightOne.mantissa em.shiftRightOne.accuracy
  := by
  obtain ⟨m, roundBit, stickyBit⟩ := em
  change Locates t m _ at h
  change Locates (t / 2) (m / 2 : Nat)
    (ExtendedMantissa.mk (m / 2) (m % 2 != 0) (roundBit || stickyBit)).accuracy
  have hm : (m : ℚ) = 2 * (m / 2 : Nat) + (m % 2 : Nat) := by
    rw [← Nat.cast_ofNat, ← Nat.cast_mul, ← Nat.cast_add, Nat.div_add_mod]
  have hlt := h.lt
  rcases Nat.mod_two_eq_zero_or_one m with hmod | hmod
  · rw [hmod, Nat.cast_zero] at hm
    rcases h.eq_or_lt with ⟨hbits, ht⟩ | ⟨hbits, ht⟩
    · rw [hmod, hbits]
      change t / 2 = (m / 2 : Nat)
      linarith
    · rw [hmod, hbits]
      constructor <;> linarith
  · rw [hmod, Nat.cast_one] at hm
    rcases h.eq_or_lt with ⟨hbits, ht⟩ | ⟨hbits, ht⟩
    · rw [hmod, hbits]
      change t / 2 = (m / 2 : Nat) + 1 / 2
      linarith
    · rw [hmod, hbits]
      constructor <;> linarith

/-- Shifts by any number of bits keep what is known about the value. -/
theorem shiftRight {t : ℚ} {em : ExtendedMantissa} (h : Locates t em.mantissa em.accuracy)
    (count : Nat) :
  Locates (t / 2 ^ count) (em >>> count).mantissa (em >>> count).accuracy
  := by
  change Locates _ (count.repeat ExtendedMantissa.shiftRightOne em).mantissa
    (count.repeat ExtendedMantissa.shiftRightOne em).accuracy
  induction count with
  | zero => simpa [Nat.repeat] using h
  | succ count ih =>
    rw [pow_succ, ← div_div]
    apply ih.shiftRightOne

end Locates

/-! ### Rounding to a mantissa and an exponent -/

/-- How far below a number, in units of its last place, the values reach that go to it. -/
def gapBelow (m : Nat) (e : Int) : ℚ :=
  if m = 2 ^ 52 ∧ -1074 < e then 1 / 4 else 1 / 2

/-- The values reach some way below a number. -/
theorem gapBelow_pos (m : Nat) (e : Int) :
  0 < gapBelow m e
  := by
  unfold gapBelow
  split <;> norm_num

/-- The values reach at most half way to the number below. -/
theorem gapBelow_le (m : Nat) (e : Int) :
  gapBelow m e ≤ 1 / 2
  := by
  unfold gapBelow
  split <;> norm_num

/-- The values to which `m * 2 ^ e` is the nearest number, those in the middle between two
numbers if the mantissa is even. -/
structure IsNearest (v : ℚ) (m : Nat) (e : Int) : Prop where
  low : (m - gapBelow m e) * 2 ^ e ≤ v
  high : v ≤ (m + 1 / 2) * 2 ^ e
  tie : v = (m - gapBelow m e) * 2 ^ e ∨ v = (m + 1 / 2) * 2 ^ e → m % 2 = 0

/-- The exponent that rounding aims at. -/
theorem targetExponent_binary64 (n : Nat) (f : Int) :
  Format.binary64.targetExponent (totalExponent n f) = max (n.log2 + 1 + f - 53) (-1074)
  := rfl

/-- An accuracy is kept in the residual bits. -/
theorem Locates.ofMantissaAndAccuracy {t : ℚ} {n : Nat} {accuracy : Accuracy}
    (h : Locates t n accuracy) :
  Locates t (ExtendedMantissa.ofMantissaAndAccuracy n accuracy).mantissa
    (ExtendedMantissa.ofMantissaAndAccuracy n accuracy).accuracy
  := by
  match accuracy, h with
  | .exact, h | .inexact .lt, h | .inexact .eq, h | .inexact .gt, h => apply h

/-- Shifting to a larger exponent keeps what is known about the value. -/
theorem Locates.shiftToExponent {v : ℚ} {n : Nat} {f target : Int} {accuracy : Accuracy}
    (h : Locates (v / 2 ^ f) n accuracy) (hle : f ≤ target) :
  ∃ em : ExtendedMantissa, UnpackedFloat.shiftToExponent n f accuracy target = (em, target) ∧
    Locates (v / 2 ^ target) em.mantissa em.accuracy
  := by
  have hcount : f + ((target - f).toNat : Int) = target := by omega
  have hshift := h.ofMantissaAndAccuracy.shiftRight (target - f).toNat
  rw [div_div, ← zpow_natCast, ← zpow_add₀ (by norm_num), hcount] at hshift
  use ExtendedMantissa.ofMantissaAndAccuracy n accuracy >>> (target - f).toNat
  rw [UnpackedFloat.shiftToExponent, hcount]
  use rfl, hshift

/-- The exponent that rounding aims at leaves fifty-three bits, or is the least one. -/
theorem Locates.target {v : ℚ} {n : Nat} {f target : Int} {accuracy : Accuracy}
    (h : Locates (v / 2 ^ f) n accuracy)
    (htarget : target = Format.binary64.targetExponent (totalExponent n f)) (hle : f ≤ target) :
  -1074 ≤ target ∧ v < 2 ^ (target + 53) ∧ (target = -1074 ∨ 2 ^ (target + 52) ≤ v)
  := by
  rw [targetExponent_binary64] at htarget
  have hpos : (0 : ℚ) < 2 ^ f := by positivity
  have htwo : (1 : ℚ) < 2 := by norm_num
  constructor
  · omega
  · constructor
    · have hlt : v < (n + 1) * 2 ^ f := (div_lt_iff₀ hpos).mp h.lt
      have hn : (n + 1 : ℚ) ≤ 2 ^ (n.log2 + 1) := by
        exact_mod_cast Nat.lt_log2_self
      calc
        v < (n + 1) * 2 ^ f := hlt
        _ ≤ 2 ^ (n.log2 + 1) * 2 ^ f := by gcongr
        _ = 2 ^ ((n.log2 + 1 : Nat) + f) := by rw [zpow_add₀ (by norm_num), zpow_natCast]
        _ ≤ 2 ^ (target + 53) := by
          apply zpow_le_zpow_right₀ (le_of_lt htwo)
          omega
    · by_cases hmin : target = -1074
      · left
        apply hmin
      · right
        have hn : n ≠ 0 := by
          intro hzero
          rw [hzero] at htarget
          have hlog : Nat.log2 0 = 0 := by decide
          omega
        have hle : (n : ℚ) * 2 ^ f ≤ v := (le_div_iff₀ hpos).mp h.le
        have hlow : (2 : ℚ) ^ n.log2 ≤ n := by
          exact_mod_cast Nat.log2_self_le hn
        calc
          (2 : ℚ) ^ (target + 52) = 2 ^ ((n.log2 : Int) + f) := by
            congr 1
            omega
          _ = 2 ^ n.log2 * 2 ^ f := by rw [zpow_add₀ (by norm_num), zpow_natCast]
          _ ≤ n * 2 ^ f := by gcongr
          _ ≤ v := hle

/-- Powers of two are ordered as their exponents. -/
theorem zpow_two_lt_iff {a b : Int} :
  (2 : ℚ) ^ a < 2 ^ b ↔ a < b
  := zpow_lt_zpow_iff_right₀ (by norm_num)

/-- A power of two with a sum as its exponent. -/
theorem zpow_two_add (e : Int) (k : Nat) :
  (2 : ℚ) ^ (e + k) = 2 ^ k * 2 ^ e
  := by
  rw [zpow_add₀ (by norm_num), zpow_natCast, mul_comm]

namespace IsNearest

/-- A value that goes to a number is at least half of it. -/
theorem le {v : ℚ} {m : Nat} {e : Int} (h : IsNearest v m e) :
  (m - 1 / 2) * 2 ^ e ≤ v
  := by
  have hpos : (0 : ℚ) < 2 ^ e := by positivity
  have hgap := gapBelow_le m e
  calc
    ((m : ℚ) - 1 / 2) * 2 ^ e ≤ (m - gapBelow m e) * 2 ^ e := by gcongr
    _ ≤ v := h.low

/-- Below a power of two a value goes to the power through the next smaller exponent. -/
theorem roundsTo_of_lt {v : ℚ} {e : Int} (h : IsNearest v (2 ^ 52) e) (he : -1074 < e)
    (hlt : v < 2 ^ 52 * 2 ^ e) :
  RoundsTo (v / 2 ^ (e - 1)) (2 ^ 53)
  := by
  have hpos : (0 : ℚ) < 2 ^ e := by positivity
  have hdouble : v / 2 ^ (e - 1) = 2 * (v / 2 ^ e) := by
    rw [zpow_sub_one₀ (by norm_num)]
    field_simp
  have hgap : gapBelow (2 ^ 52) e = 1 / 4 := if_pos ⟨rfl, he⟩
  have hlow : ((2 ^ 52 : Nat) : ℚ) - gapBelow (2 ^ 52) e ≤ v / 2 ^ e := (le_div_iff₀ hpos).mpr h.low
  have hhigh : v / 2 ^ e < 2 ^ 52 := (div_lt_iff₀ hpos).mpr hlt
  rw [hgap] at hlow
  push_cast at hlow
  rw [hdouble]
  constructor
  · push_cast
    linarith
  · push_cast
    linarith
  · intro _
    decide

/-- A value goes to the mantissa if it is not below a power of two. -/
theorem roundsTo {v : ℚ} {m : Nat} {e : Int} (h : IsNearest v m e)
    (hle : m = 2 ^ 52 → -1074 < e → m * 2 ^ e ≤ v) :
  RoundsTo (v / 2 ^ e) m
  := by
  have hpos : (0 : ℚ) < 2 ^ e := by positivity
  constructor
  · apply (le_div_iff₀ hpos).mpr h.le
  · apply (div_le_iff₀ hpos).mpr h.high
  · rintro (ht | ht)
    · have hv := (div_eq_iff (ne_of_gt hpos)).mp ht
      by_cases hpower : m = 2 ^ 52 ∧ -1074 < e
      · have hcontra := (le_div_iff₀ hpos).mpr (hle hpower.1 hpower.2)
        linarith
      · apply h.tie
        left
        rw [gapBelow, if_neg hpower]
        apply hv
    · apply h.tie
      right
      apply (div_eq_iff (ne_of_gt hpos)).mp ht

/-- A value that goes to a number has no more bits than the number. -/
theorem lt_zpow {v : ℚ} {m : Nat} {e : Int} (h : IsNearest v m e) (hc : IsCanonical m e) :
  v < 2 ^ (e + 53)
  := by
  have hpos : (0 : ℚ) < 2 ^ e := by positivity
  have hmantissa : (m : ℚ) + 1 ≤ 2 ^ 53 := by exact_mod_cast hc.lt
  have hscale : (2 : ℚ) ^ (e + 53) = 2 ^ 53 * 2 ^ e := zpow_two_add e 53
  calc
    v ≤ (m + 1 / 2) * 2 ^ e := h.high
    _ < 2 ^ 53 * 2 ^ e := by gcongr; linarith
    _ = 2 ^ (e + 53) := hscale.symm

/-- A value that goes to a number with fifty-three bits has as many, or one less. -/
theorem zpow_le {v : ℚ} {m : Nat} {e : Int} (h : IsNearest v m e) (hm : 2 ^ 52 ≤ m) :
  2 ^ (e + 51) ≤ v
  := by
  have hmantissa : (2 ^ 52 : ℚ) ≤ m := by exact_mod_cast hm
  have hscale : (2 : ℚ) ^ (e + 51) = 2 ^ 51 * 2 ^ e := zpow_two_add e 51
  calc
    (2 : ℚ) ^ (e + 51) = 2 ^ 51 * 2 ^ e := hscale
    _ ≤ (m - 1 / 2) * 2 ^ e := by gcongr; linarith
    _ ≤ v := h.le

/-- A value that goes to a number with fifty-three bits, not below a power of two, has as
many. -/
theorem zpow_le_of_le {v : ℚ} {m : Nat} {e : Int} (h : IsNearest v m e) (hm : 2 ^ 52 ≤ m)
    (hle : m = 2 ^ 52 → m * 2 ^ e ≤ v) :
  2 ^ (e + 52) ≤ v
  := by
  have hscale : (2 : ℚ) ^ (e + 52) = 2 ^ 52 * 2 ^ e := zpow_two_add e 52
  rcases Nat.eq_or_lt_of_le hm with heq | hlt
  · have hv := hle heq.symm
    rw [← heq] at hv
    push_cast at hv
    rw [hscale]
    linarith
  · have hmantissa : (2 ^ 52 + 1 : ℚ) ≤ m := by exact_mod_cast hlt
    calc
      (2 : ℚ) ^ (e + 52) = 2 ^ 52 * 2 ^ e := hscale
      _ ≤ (m - 1 / 2) * 2 ^ e := by gcongr; linarith
      _ ≤ v := h.le

/-- The exponent that rounding aims at is that of the number, or the one before it for a value
below a power of two. -/
theorem target {v : ℚ} {m : Nat} {e target : Int} (h : IsNearest v m e) (hc : IsCanonical m e)
    (hlow : -1074 ≤ target) (hlt : v < 2 ^ (target + 53))
    (hle : target = -1074 ∨ 2 ^ (target + 52) ≤ v) :
  target = e ∧ RoundsTo (v / 2 ^ e) m ∨
    target = e - 1 ∧ m = 2 ^ 52 ∧ RoundsTo (v / 2 ^ (e - 1)) (2 ^ 53)
  := by
  by_cases hbelow : m = 2 ^ 52 ∧ -1074 < e ∧ v < m * 2 ^ e
  · obtain ⟨rfl, he, hv⟩ := hbelow
    have hscale : (2 : ℚ) ^ (e + 52) = 2 ^ 52 * 2 ^ e := zpow_two_add e 52
    rw [Nat.cast_pow, Nat.cast_ofNat] at hv
    right
    have hround := h.roundsTo_of_lt he hv
    have hfirst := zpow_two_lt_iff.mp (lt_of_le_of_lt (h.zpow_le (Nat.le_refl _)) hlt)
    rw [← hscale] at hv
    refine ⟨?_, rfl, hround⟩
    rcases hle with hmin | hle
    · omega
    · have hsecond := zpow_two_lt_iff.mp (lt_of_le_of_lt hle hv)
      omega
  · left
    have hpower : m = 2 ^ 52 → -1074 < e → m * 2 ^ e ≤ v :=
      fun hm he => not_lt.mp fun hv => hbelow ⟨hm, he, hv⟩
    refine ⟨?_, h.roundsTo hpower⟩
    apply le_antisymm
    · rcases hle with hmin | hle
      · rw [hmin]
        apply hc.low
      · have hfirst := zpow_two_lt_iff.mp (lt_of_le_of_lt hle (h.lt_zpow hc))
        omega
    · by_cases hmin : e = -1074
      · rw [hmin]
        apply hlow
      · have he : -1074 < e := lt_of_le_of_ne hc.low (Ne.symm hmin)
        have hfull := h.zpow_le_of_le (hc.normal.resolve_right hmin) (fun hm => hpower hm he)
        have hsecond := zpow_two_lt_iff.mp (lt_of_le_of_lt hfull hlt)
        omega

end IsNearest

/-- A mantissa of at most fifty-three bits is not shifted. -/
theorem shiftToTargetExponent_of_lt {m : Nat} {e : Int} (hm : 0 < m) (hlt : m < 2 ^ 53)
    (hlow : -1074 ≤ e) :
  shiftToTargetExponent Format.binary64 m e .exact = (⟨m, false, false⟩, e)
  := by
  have hlog : m.log2 < 53 := (Nat.log2_lt (Nat.ne_of_gt hm)).mpr hlt
  have hcount : (max (m.log2 + 1 + e - 53) (-1074) - e).toNat = 0 := by omega
  rw [shiftToTargetExponent, targetExponent_binary64, shiftToExponent, hcount, Int.natCast_zero,
    Int.add_zero]
  rfl

/-- A mantissa that rounding carries to a further bit is shifted by one. -/
theorem shiftToTargetExponent_carry {e : Int} (he : -1074 ≤ e) :
  shiftToTargetExponent Format.binary64 (2 ^ 53) e .exact = (⟨2 ^ 52, false, false⟩, e + 1)
  := by
  have hcount : (max (((2 ^ 53 : Nat).log2 : Int) + 1 + e - 53) (-1074) - e).toNat = 1 := by
    rw [Nat.log2_two_pow]
    omega
  rw [shiftToTargetExponent, targetExponent_binary64, shiftToExponent, hcount]
  rfl

/-- Rounding gives the nearest number. -/
theorem roundWithAccuracy_eq {v : ℚ} {m n : Nat} {e f : Int} {accuracy : Accuracy}
    (hc : IsCanonical m e) (hm : 0 < m) (hv : IsNearest v m e)
    (hn : Locates (v / 2 ^ f) n accuracy)
    (hf : f ≤ Format.binary64.targetExponent (totalExponent n f)) (s : Sign) :
  roundWithAccuracy Format.binary64 s n f accuracy = .finite s m e hm
  := by
  obtain ⟨hlow, hlt, hle⟩ := hn.target rfl hf
  obtain ⟨em, hshift, hem⟩ := hn.shiftToExponent hf
  rw [roundWithAccuracy, shiftToTargetExponent, hshift]
  rcases hv.target hc hlow hlt hle with ⟨heq, hround⟩ | ⟨heq, rfl, hround⟩
  · rw [heq] at hem
    have hmantissa : em.roundedMantissa = m := hem.roundToNearestEven hround
    simp only [heq, hmantissa, shiftToTargetExponent_of_lt hm hc.lt hc.low]
    rw [dif_neg (Nat.ne_of_gt hm)]
  · rw [heq] at hem hlow
    have hmantissa : em.roundedMantissa = 2 ^ 53 := hem.roundToNearestEven hround
    simp only [heq, hmantissa, shiftToTargetExponent_carry hlow, Int.sub_add_cancel]
    rw [dif_neg (Nat.ne_of_gt hm)]

end Calculator
