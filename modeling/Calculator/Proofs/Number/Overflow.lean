import Calculator.Proofs.Number.Monotone

/-!
# Overflow

A value from `overflowLimit` on goes to the infinite number of its sign.  Such a value is rounded to
a mantissa whose exponent is too large (`exists_roundWithAccuracy_eq`), also in the last half place
below the next power of two, from where the mantissa is carried to it
(`exists_roundsTo_of_overflow`); and what has too large an exponent is packed as the infinite number
(`ofModel_pack_of_lt`).

* `HasValue.sub_overflow`, `HasValue.add_overflow`: differences and sums that are too large.
* `signedInfinity_div_two`: half of an infinite number is infinite.
-/

namespace Calculator

open Float.Model Float.Model.UnpackedFloat

/-- The infinite number with a sign. -/
def signedInfinity (negative : Bool) : Float :=
  if negative then -positiveInfinity else positiveInfinity

/-- What has too large an exponent is packed as the infinite number. -/
theorem ofModel_pack_of_lt (negative : Bool) {m : Nat} {e : Int} (hm : 0 < m) (he : 971 < e) :
  Float.ofModel (Float.Model.pack (.finite (signOf negative) m e hm)) = signedInfinity negative
  := by
  have hlarge : 2 ^ 11 ≤ (e + (1023 : Nat) + (52 : Nat)).toNat + 1 := by omega
  have hbits : UnpackedFloat.pack Format.binary64 (.finite (signOf negative) m e hm)
      = UnpackedFloat.pack Format.binary64 (.infinity (signOf negative)) := if_pos hlarge
  have hmodel : Float.Model.pack (.finite (signOf negative) m e hm)
      = Float.Model.pack (.infinity (signOf negative)) := by
    simp only [Float.Model.pack, hbits]
  rw [hmodel]
  cases negative <;> rfl

/-! ### Rounding -/

/-- The mantissa to which a value that is too large goes has too large an exponent, or is carried to
it. -/
theorem exists_roundsTo_of_overflow {v : ℚ} {target : Int} (hv : overflowLimit ≤ v)
    (hlt : v < 2 ^ (target + 53)) (hle : target = -1074 ∨ 2 ^ (target + 52) ≤ v) :
  ∃ n : Nat, RoundsTo (v / 2 ^ target) n ∧
    (n = 2 ^ 53 ∧ 971 ≤ target ∨ 0 < n ∧ n < 2 ^ 53 ∧ 971 < target)
  := by
  have hpos : (0 : ℚ) < 2 ^ target := by positivity
  have hlimit : (2 : ℚ) ^ (1023 : Int) < overflowLimit := by
    have hscale : (2 : ℚ) ^ (1023 : Int) = 2 ^ 52 * 2 ^ (971 : Int) := zpow_two_add 971 52
    rw [hscale, overflowLimit]
    gcongr
    norm_num
  have htarget : 1023 < target + 53 := zpow_two_lt_iff.mp (hlimit.trans (lt_of_le_of_lt hv hlt))
  have hhigh : (2 : ℚ) ^ (target + 53) = 2 ^ 53 * 2 ^ target := zpow_two_add target 53
  have hlow : (2 : ℚ) ^ (target + 52) = 2 ^ 52 * 2 ^ target := zpow_two_add target 52
  have hbits := hle.resolve_left (by omega)
  rw [hhigh, ← div_lt_iff₀ hpos] at hlt
  rw [hlow, ← le_div_iff₀ hpos] at hbits
  obtain ⟨n, hn⟩ := exists_roundsTo (by linarith : 0 ≤ v / 2 ^ target)
  have hn0 : ((0 : Nat) : ℚ) < n := by
    rw [Nat.cast_zero]
    linarith [hn.high]
  have hn1 : (n : ℚ) < (2 ^ 53 + 1 : Nat) := by
    push_cast
    linarith [hn.low]
  rw [Nat.cast_lt] at hn0 hn1
  use n, hn
  rcases Nat.lt_or_ge n (2 ^ 53) with hsmall | hlarge
  · right
    refine ⟨hn0, hsmall, ?_⟩
    by_contra hexponent
    obtain rfl : target = 971 := by omega
    -- The limit is the middle between the largest mantissa, which is odd, and the next one.
    have hmiddle : (2 : ℚ) ^ 53 - 1 / 2 ≤ v / 2 ^ (971 : Int) := (le_div_iff₀ hpos).mpr hv
    have hnext : ((n + 1 : Nat) : ℚ) ≤ (2 ^ 53 : Nat) := Nat.cast_le.mpr hsmall
    push_cast at hnext
    have heven := hn.tie (Or.inr (by linarith [hn.high]))
    have hodd : ((n + 1 : Nat) : ℚ) = (2 ^ 53 : Nat) := by
      push_cast
      linarith [hn.high]
    rw [Nat.cast_inj] at hodd
    omega
  · left
    omega

/-- A value that is too large is rounded to too large an exponent. -/
theorem exists_roundWithAccuracy_eq {v : ℚ} {n : Nat} {f : Int} {accuracy : Accuracy}
    (hv : overflowLimit ≤ v) (hn : Locates (v / 2 ^ f) n accuracy)
    (hf : f ≤ Format.binary64.targetExponent (totalExponent n f)) (s : Sign) :
  ∃ (m : Nat) (e : Int) (hm : 0 < m), 971 < e ∧
    roundWithAccuracy Format.binary64 s n f accuracy = .finite s m e hm
  := by
  obtain ⟨hlow, hlt, hle⟩ := hn.target rfl hf
  obtain ⟨em, hshift, hem⟩ := hn.shiftToExponent hf
  obtain ⟨r, hr, hcases⟩ := exists_roundsTo_of_overflow hv hlt hle
  have hmantissa : em.roundedMantissa = r := hem.roundToNearestEven hr
  rw [roundWithAccuracy, shiftToTargetExponent, hshift]
  rcases hcases with ⟨rfl, hlarge⟩ | ⟨hpos, hbits, hlarge⟩
  · refine ⟨2 ^ 52, _, by decide, Int.lt_add_one_of_le hlarge, ?_⟩
    simp only [hmantissa, shiftToTargetExponent_carry hlow]
    rfl
  · refine ⟨r, _, hpos, hlarge, ?_⟩
    simp only [hmantissa, shiftToTargetExponent_of_lt hpos hbits hlow]
    rw [dif_neg (Nat.ne_of_gt hpos)]

/-- The limit from which on values go to the infinite number is positive. -/
theorem overflowLimit_pos :
  0 < overflowLimit
  := by
  rw [overflowLimit]
  positivity

/-- A natural number times a power of two that is too large goes to the infinite number. -/
theorem ofModel_pack_round {n : Nat} {f : Int} (h : overflowLimit ≤ n * 2 ^ f) (negative : Bool) :
  Float.ofModel (Float.Model.pack (UnpackedFloat.round Format.binary64 (signOf negative) n f))
    = signedInfinity negative
  := by
  have hn : 0 < n := by
    apply Nat.pos_of_ne_zero
    rintro rfl
    rw [Nat.cast_zero, zero_mul] at h
    linarith [overflowLimit_pos]
  obtain ⟨k, g, hlocates, hle, hround⟩ := exists_round_eq hn f (signOf negative)
  obtain ⟨m, e, hm, he, hlarge⟩ := exists_roundWithAccuracy_eq h hlocates hle (signOf negative)
  rw [hround, hlarge]
  apply ofModel_pack_of_lt negative hm he

/-- An integer times a power of two that is too large goes to the infinite number of its sign. -/
theorem ofModel_pack_normalize {k f : Int} {negative : Bool}
    (h : overflowLimit ≤ if negative then -((k : ℚ) * 2 ^ f) else k * 2 ^ f) :
  Float.ofModel (Float.Model.pack (UnpackedFloat.normalize Format.binary64 k f .positive))
    = signedInfinity negative
  := by
  have hpos : (0 : ℚ) < 2 ^ f := by positivity
  have hlimit := overflowLimit_pos
  rw [UnpackedFloat.normalize]
  cases negative
  · rw [if_neg Bool.false_ne_true] at h
    have hk : (0 : ℚ) < k := pos_of_mul_pos_left (hlimit.trans_le h) hpos.le
    rw [Int.cast_pos] at hk
    obtain ⟨n, rfl⟩ := Int.eq_ofNat_of_zero_le hk.le
    rw [Int.compare_eq_gt.mpr hk]
    apply ofModel_pack_round h false
  · rw [if_pos rfl, ← neg_mul] at h
    have hk : (0 : ℚ) < -k := pos_of_mul_pos_left (hlimit.trans_le h) hpos.le
    rw [neg_pos, Int.cast_lt_zero] at hk
    obtain ⟨n, rfl⟩ := Int.exists_eq_neg_ofNat hk.le
    rw [Int.compare_eq_lt.mpr hk]
    simp only [neg_neg, Int.toNat_natCast]
    apply ofModel_pack_round _ true
    rw [Int.cast_neg, neg_neg] at h
    apply h

/-! ### Differences and sums -/

/-- A difference that is too large is of two numbers other than zero. -/
theorem HasValue.ne_zero_of_overflow {x y : Float} {v w : ℚ} (hx : HasValue x v)
    (hy : HasValue y w) (h : overflowLimit ≤ |v - w|) :
  v ≠ 0 ∧ w ≠ 0
  := by
  constructor
  · rintro rfl
    rw [zero_sub, abs_neg] at h
    apply absurd h (not_le.mpr hy.abs_lt)
  · rintro rfl
    rw [sub_zero] at h
    apply absurd h (not_le.mpr hx.abs_lt)

/-- A difference of two finite numbers that is too large is the infinite number of its sign. -/
theorem HasValue.sub_overflow {x y : Float} {v w : ℚ} {negative : Bool} (hx : HasValue x v)
    (hy : HasValue y w) (h : overflowLimit ≤ if negative then -(v - w) else v - w) :
  x - y = signedInfinity negative
  := by
  have habs : overflowLimit ≤ |v - w| := by
    apply h.trans
    split
    · apply neg_le_abs
    · apply le_abs_self
  obtain ⟨hv0, hw0⟩ := hx.ne_zero_of_overflow hy habs
  obtain ⟨s, a, f, hread, hv⟩ := hx
  obtain ⟨s', b, g, hread', hw⟩ := hy
  obtain ⟨k, e, hvalue, hsub⟩ :=
    exists_sub_eq_normalize (pos_of_size_eq hv hv0) (pos_of_size_eq hw hw0) hv hw
  rw [← hvalue] at h
  have hpack := ofModel_pack_normalize h
  rw [← hsub, ← Reading.unpack_toModel hread, ← Reading.unpack_toModel hread'] at hpack
  apply hpack

/-- A sum of two finite numbers that is too large is the infinite number of its sign. -/
theorem HasValue.add_overflow {x y : Float} {v w : ℚ} {negative : Bool} (hx : HasValue x v)
    (hy : HasValue y w) (h : overflowLimit ≤ if negative then -(v + w) else v + w) :
  x + y = signedInfinity negative
  := by
  rw [← sub_neg_eq_add v w] at h
  rw [hx.add_eq_sub_neg hy]
  apply hx.sub_overflow hy.neg h

/-- Half of an infinite number is infinite. -/
theorem signedInfinity_div_two (negative : Bool) :
  signedInfinity negative / 2.0 = signedInfinity negative
  := by
  cases negative <;> decide +kernel

end Calculator
