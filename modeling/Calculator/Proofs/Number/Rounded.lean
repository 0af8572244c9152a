import Calculator.Proofs.Number.Value

/-!
# Rounded values

`RoundsValue x t` says that an exact value goes to a number.  The value has any sign, and may go to
zero.

* Every value below the limit from which on numbers are infinite goes to some number
  (`exists_isNearest_of_lt`), and what is rounded is this number, zero included
  (`roundWithAccuracy_eq_unpackedOf`).
* Products, quotients, differences and sums of numbers are the exact ones, rounded
  (`HasMagnitude.mul`, `HasMagnitude.div`, `HasValue.sub`, `HasValue.add`).
* A number differs little from a value that goes to it (`RoundsValue.exists_error`).
-/

namespace Calculator

open Float.Model Float.Model.UnpackedFloat

/-! ### The range of the finite numbers -/

/-- The values from here on go to no finite number: half way from the largest number to the one
that would come next. -/
def overflowLimit : ℚ :=
  (2 ^ 53 - 1 / 2) * 2 ^ (971 : Int)

/-- The values of finite numbers are below the limit from which on numbers are infinite, by half of
the last place of the largest one. -/
theorem HasValue.abs_le {x : Float} {v : ℚ} (h : HasValue x v) :
  |v| ≤ overflowLimit - 1 / 2 * 2 ^ (971 : Int)
  := by
  obtain ⟨negative, m, e, hread, hv⟩ := h
  have hc := Reading.isCanonical_of_ofFloat hread
  have hm : (m : ℚ) ≤ 2 ^ 53 - 1 := by
    have hcast : ((m + 1 : Nat) : ℚ) ≤ (2 ^ 53 : Nat) := by exact_mod_cast hc.lt
    push_cast at hcast
    linarith
  calc
    |v| = m * 2 ^ e := abs_eq_of_size_eq (by positivity) hv
    _ ≤ (2 ^ 53 - 1) * 2 ^ e := by gcongr
    _ ≤ (2 ^ 53 - 1) * 2 ^ (971 : Int) :=
      mul_le_mul_of_nonneg_left (zpow_le_zpow_right₀ (by norm_num) hc.high) (by norm_num)
    _ = overflowLimit - 1 / 2 * 2 ^ (971 : Int) := by
      rw [overflowLimit, ← sub_mul]
      norm_num only

/-- The values of finite numbers are below the limit from which on numbers are infinite. -/
theorem HasValue.abs_lt {x : Float} {v : ℚ} (h : HasValue x v) :
  |v| < overflowLimit
  := lt_of_le_of_lt h.abs_le (sub_lt_self _ (by positivity))

namespace IsNearest

/-- What zero goes to, and what lies on the other side of it. -/
theorem eq_zero_of_nonpos {v : ℚ} {m : Nat} {e : Int} (h : IsNearest v m e) (hv : v ≤ 0) :
  m = 0
  := by
  have hpos : (0 : ℚ) < 2 ^ e := by positivity
  have hle : (m : ℚ) - 1 / 2 ≤ 0 := by
    by_contra hlt
    have hcontra := mul_pos (not_le.mp hlt) hpos
    linarith [h.le]
  have hlt : (m : ℚ) < (1 : Nat) := by
    rw [Nat.cast_one]
    linarith
  rw [Nat.cast_lt] at hlt
  omega

/-- Zero goes to zero. -/
theorem zero :
  IsNearest 0 0 (-1074)
  := by
  have hself := IsNearest.self 0 (-1074)
  rw [Nat.cast_zero, zero_mul] at hself
  apply hself

/-- A value of the size of the numbers with the least exponent goes to one of them. -/
theorem of_roundsTo_least {v : ℚ} {n : Nat} (h : RoundsTo (v / 2 ^ (-1074 : Int)) n) :
  IsNearest v n (-1074)
  := by
  have hpos : (0 : ℚ) < 2 ^ (-1074 : Int) := by positivity
  have hgap : gapBelow n (-1074) = 1 / 2 := if_neg fun h => lt_irrefl _ h.2
  constructor
  · rw [hgap]
    apply (le_div_iff₀ hpos).mp h.low
  · apply (div_le_iff₀ hpos).mp h.high
  · rw [hgap, ← div_eq_iff (ne_of_gt hpos), ← div_eq_iff (ne_of_gt hpos)]
    apply h.tie

end IsNearest

/-- A value below the normal numbers goes to a number with the least exponent. -/
theorem exists_isNearest_least {v : ℚ} (h0 : 0 ≤ v) (hlt : v < 2 ^ (-1022 : Int)) :
  ∃ (m : Nat) (e : Int), IsCanonical m e ∧ IsNearest v m e
  := by
  have hpos : (0 : ℚ) < 2 ^ (-1074 : Int) := by positivity
  obtain ⟨n, hn⟩ := exists_roundsTo (div_nonneg h0 (le_of_lt hpos))
  have hscale : (2 : ℚ) ^ (-1022 : Int) = 2 ^ 52 * 2 ^ (-1074 : Int) := by
    rw [← zpow_two_add]
    congr 1
  rw [hscale, ← div_lt_iff₀ hpos] at hlt
  have hbits : (n : ℚ) < (2 ^ 52 + 1 : Nat) := by
    push_cast
    linarith [hn.low]
  rw [Nat.cast_lt] at hbits
  use n, -1074, ⟨by omega, by decide, by decide, Or.inr rfl⟩
  apply IsNearest.of_roundsTo_least hn

/-- A value of the size of the numbers with the largest exponent goes to one of them. -/
theorem exists_isNearest_largest {v : ℚ} (hle : 2 ^ (1023 : Int) ≤ v) (hlt : v < overflowLimit) :
  ∃ (m : Nat) (e : Int), IsCanonical m e ∧ IsNearest v m e
  := by
  have hpos : (0 : ℚ) < 2 ^ (971 : Int) := by positivity
  have hscale : (2 : ℚ) ^ (1023 : Int) = 2 ^ 52 * 2 ^ (971 : Int) := zpow_two_add 971 52
  rw [hscale] at hle
  have hlow := (le_div_iff₀ hpos).mpr hle
  have hhigh := (div_lt_iff₀ hpos).mpr hlt
  obtain ⟨n, hn⟩ := exists_roundsTo (by linarith : 0 ≤ v / 2 ^ (971 : Int))
  have hbit : ((2 ^ 52 : Nat) : ℚ) < (n + 1 : Nat) := by
    push_cast
    linarith [hn.high]
  have hbits : (n : ℚ) < (2 ^ 53 : Nat) := by
    push_cast
    linarith [hn.low]
  rw [Nat.cast_lt] at hbit hbits
  use n, 971, ⟨hbits, by decide, by decide, Or.inl (by omega)⟩
  apply IsNearest.of_roundsTo hn
  intro hpower
  rw [hpower, Nat.cast_pow, Nat.cast_ofNat]
  apply hle

/-- Every value below the limit goes to some number. -/
theorem exists_isNearest_of_lt {v : ℚ} (h0 : 0 ≤ v) (hlt : v < overflowLimit) :
  ∃ (m : Nat) (e : Int), IsCanonical m e ∧ IsNearest v m e
  := by
  rcases lt_or_ge v (2 ^ (-1022 : Int)) with hleast | hlow
  · apply exists_isNearest_least h0 hleast
  · rcases lt_or_ge v (2 ^ (1023 : Int)) with hhigh | hlargest
    · obtain ⟨m, e, hc, -, hnearest⟩ := exists_isNearest hlow hhigh
      use m, e, hc
    · apply exists_isNearest_largest hlargest hlt

/-! ### Rounding -/

/-- A value that goes to zero is rounded to it. -/
theorem roundWithAccuracy_eq_zero {v : ℚ} {n : Nat} {f : Int} {accuracy : Accuracy}
    (hv : IsNearest v 0 (-1074)) (hn : Locates (v / 2 ^ f) n accuracy)
    (hf : f ≤ Format.binary64.targetExponent (totalExponent n f)) (s : Sign) :
  roundWithAccuracy Format.binary64 s n f accuracy = .zero s
  := by
  have hpos : (0 : ℚ) < 2 ^ (-1074 : Int) := by positivity
  obtain ⟨hlow, -, hle⟩ := hn.target rfl hf
  obtain ⟨em, hshift, hem⟩ := hn.shiftToExponent hf
  have htarget : Format.binary64.targetExponent (totalExponent n f) = -1074 := by
    rcases hle with hmin | hle
    · apply hmin
    · have hhigh := hv.high
      have hpower : (2 : ℚ) ^ (-1074 : Int) ≤ 2 ^ (Format.binary64.targetExponent
          (totalExponent n f) + 52) := by
        apply zpow_le_zpow_right₀ (by norm_num)
        omega
      rw [Nat.cast_zero] at hhigh
      linarith
  rw [htarget] at hem hshift
  have hround : RoundsTo (v / 2 ^ (-1074 : Int)) 0 := hv.roundsTo fun hm => by cases hm
  have hmantissa : em.roundedMantissa = 0 := hem.roundToNearestEven hround
  rw [roundWithAccuracy, shiftToTargetExponent, htarget, hshift]
  simp only [hmantissa]
  rfl

/-- Rounding gives the number to which a value goes, also if this is zero. -/
theorem roundWithAccuracy_eq_unpackedOf {v : ℚ} {m n : Nat} {e f : Int} {accuracy : Accuracy}
    (hc : IsCanonical m e) (hv : IsNearest v m e) (hn : Locates (v / 2 ^ f) n accuracy)
    (hf : f ≤ Format.binary64.targetExponent (totalExponent n f)) (negative : Bool) :
  roundWithAccuracy Format.binary64 (signOf negative) n f accuracy = unpackedOf negative m e
  := by
  rcases Nat.eq_zero_or_pos m with rfl | hm
  · have he := hc.normal.resolve_left (by decide)
    subst he
    apply roundWithAccuracy_eq_zero hv hn hf
  · rw [unpackedOf, dif_pos hm]
    apply roundWithAccuracy_eq hc hm hv hn hf

/-- A mantissa with a decreased exponent has the same value. -/
theorem decreaseExponent_value (m : Nat) (e target : Int) :
  ((decreaseExponent m e target).1 : ℚ) * 2 ^ (decreaseExponent m e target).2 = m * 2 ^ e
  := by
  have hsum : (2 : ℚ) ^ e = 2 ^ (e - target).toNat * 2 ^ (e - ((e - target).toNat : Int)) := by
    rw [← zpow_two_add, Int.sub_add_cancel]
  simp only [decreaseExponent, Nat.shiftLeft_eq]
  rw [hsum]
  push_cast
  ring

/-- An exponent is decreased to the one aimed at. -/
theorem decreaseExponent_of_le (m : Nat) {e target : Int} (h : target ≤ e) :
  (decreaseExponent m e target).2 = target
  := by
  rw [decreaseExponent]
  omega

/-- A natural number times a power of two is rounded once it has the exponent that rounding aims at,
if its own exponent is larger. -/
theorem exists_round_eq {n : Nat} (hn : 0 < n) (f : Int) (s : Sign) :
  ∃ (k : Nat) (g : Int), Locates ((n * 2 ^ f : ℚ) / 2 ^ g) k .exact ∧
    g ≤ Format.binary64.targetExponent (totalExponent k g) ∧
    UnpackedFloat.round Format.binary64 s n f = roundWithAccuracy Format.binary64 s k g .exact
  := by
  rw [UnpackedFloat.round]
  generalize htarget : Format.binary64.targetExponent (totalExponent n f) = target
  rw [targetExponent_binary64] at htarget
  refine ⟨n <<< (f - target).toNat, f - (f - target).toNat, ?_, ?_, rfl⟩
  · have hpos : (2 : ℚ) ^ (f - ((f - target).toNat : Int)) ≠ 0 := by positivity
    rw [Locates, ← decreaseExponent_value n f target]
    apply mul_div_cancel_right₀ _ hpos
  · have hlog : n.log2 + (f - target).toNat ≤ (n * 2 ^ (f - target).toNat).log2 := by
      rw [Nat.le_log2 (by positivity), Nat.pow_add]
      gcongr
      apply Nat.log2_self_le (Nat.ne_of_gt hn)
    rw [targetExponent_binary64, Nat.shiftLeft_eq]
    omega

/-- A natural number times a power of two is rounded to the number to which it goes. -/
theorem round_eq {n m : Nat} {e f : Int} (hn : 0 < n) (hc : IsCanonical m e)
    (h : IsNearest (n * 2 ^ f) m e) (negative : Bool) :
  UnpackedFloat.round Format.binary64 (signOf negative) n f = unpackedOf negative m e
  := by
  obtain ⟨k, g, hlocates, hle, hround⟩ := exists_round_eq hn f (signOf negative)
  rw [hround]
  apply roundWithAccuracy_eq_unpackedOf hc h hlocates hle

/-! ### Numbers to which a value goes -/

/-- A number with a sign to which a size goes, which may be zero. -/
def RoundsMagnitude (x : Float) (negative : Bool) (v : ℚ) : Prop :=
  ∃ (m : Nat) (e : Int), Reading.ofFloat x = .finite negative m e ∧ IsNearest v m e

/-- A number to which a value goes. -/
def RoundsValue (x : Float) (t : ℚ) : Prop :=
  ∃ negative : Bool, RoundsMagnitude x negative (if negative then -t else t)

/-- A number is finite if a value goes to it, and differs little from it: the error is relative, and
absolute only close to zero. -/
theorem RoundsValue.exists_error {x : Float} {t : ℚ} (h : RoundsValue x t) :
  ∃ r : ℚ, HasValue x r ∧ |r - t| ≤ |t| / 2 ^ 52 + 1 / 2 ^ 100
  := by
  obtain ⟨negative, m, e, hread, hnearest⟩ := h
  have hc := Reading.isCanonical_of_ofFloat hread
  have hx : HasMagnitude x negative (m * 2 ^ e) := ⟨m, e, hread, rfl⟩
  have hlow := hnearest.le
  have hhigh := hnearest.high
  have hunit : (2 : ℚ) ^ e ≤ |t| / 2 ^ 51 + 1 / 2 ^ 100 := by
    have habs : (if negative = true then -t else t) ≤ |t| := by
      split
      · apply neg_le_abs
      · apply le_abs_self
    rcases hc.normal with hbit | hleast
    · have hmantissa : (2 ^ 51 : ℚ) ≤ m - 1 / 2 := by
        have hcast : ((2 ^ 52 : Nat) : ℚ) ≤ m := by exact_mod_cast hbit
        push_cast at hcast
        linarith
      have hvalue : 2 ^ 51 * (2 : ℚ) ^ e ≤ |t| := by
        calc
          2 ^ 51 * (2 : ℚ) ^ e ≤ (m - 1 / 2) * 2 ^ e := by gcongr
          _ ≤ |t| := hlow.trans habs
      linarith
    · have hsmall : (2 : ℚ) ^ e ≤ 2 ^ (-100 : Int) := by
        rw [hleast]
        apply zpow_le_zpow_right₀ (by norm_num) (by decide)
      rw [zpow_neg, ← one_div] at hsmall
      have hnonneg := abs_nonneg t
      have hpower : (2 : ℚ) ^ (100 : Int) = 2 ^ 100 := by norm_cast
      rw [hpower] at hsmall
      linarith
  refine ⟨_, hx.hasValue, ?_⟩
  have hdistance : |(m : ℚ) * 2 ^ e - if negative = true then -t else t|
      ≤ |t| / 2 ^ 52 + 1 / 2 ^ 100 := by
    rw [abs_le]
    constructor <;> linarith
  cases negative
  · apply hdistance
  · rw [if_pos rfl] at hdistance ⊢
    rw [← abs_neg]
    convert hdistance using 2
    ring

/-! ### Products and quotients -/

/-- The quotient by a positive number is the exact quotient, rounded. -/
theorem HasMagnitude.div {x y : Float} {negative : Bool} {v w : ℚ} (hx : HasMagnitude x negative v)
    (hy : HasSize y false w) (hlt : v / w < overflowLimit) :
  RoundsMagnitude (x / y) negative (v / w)
  := by
  obtain ⟨a, f, hread, rfl⟩ := hx
  obtain ⟨b, g, hread', hb, rfl⟩ := hy
  obtain ⟨m, e, hc, hnearest⟩ := exists_isNearest_of_lt (by positivity) hlt
  have hdiv : UnpackedFloat.div Format.binary64 (unpackedOf negative a f) (unpackedOf false b g)
      = unpackedOf negative m e := by
    have hsign : ∀ s : Sign, s / .positive = s := by
      rintro (_ | _) <;> rfl
    rcases Nat.eq_zero_or_pos a with rfl | ha
    · rw [Nat.cast_zero, zero_mul, zero_div] at hnearest
      have hm := hnearest.eq_zero_of_nonpos le_rfl
      subst hm
      rw [unpackedOf, unpackedOf, unpackedOf, dif_pos hb]
      exact congrArg UnpackedFloat.zero (hsign _)
    · obtain ⟨n, h, accuracy, hcore, hlocates, hle⟩ := divCore_locates ha hb (f := f) (g := g)
      rw [← roundWithAccuracy_eq_unpackedOf hc hnearest hlocates hle, unpackedOf, unpackedOf,
        dif_pos ha, dif_pos hb, UnpackedFloat.div, hcore]
      simp only [signOf, hsign, if_neg Bool.false_ne_true]
  refine ⟨m, e, ?_, hnearest⟩
  have hpack := Reading.ofFloat_pack negative hc
  rw [← hdiv, ← Reading.unpack_toModel hread, ← Reading.unpack_toModel hread'] at hpack
  apply hpack

/-- The product with a number of at least one is the exact product, rounded. -/
theorem HasMagnitude.mul {x y : Float} {negative : Bool} {v w : ℚ} (hx : HasMagnitude x negative v)
    (hy : HasSize y false w) (hw : 1 ≤ w) (hlt : v * w < overflowLimit) :
  RoundsMagnitude (x * y) negative (v * w)
  := by
  obtain ⟨a, f, hread, rfl⟩ := hx
  obtain ⟨b, g, hread', hb, rfl⟩ := hy
  obtain ⟨m, e, hc, hnearest⟩ := exists_isNearest_of_lt (by positivity) hlt
  have hmul : UnpackedFloat.mul Format.binary64 (unpackedOf negative a f) (unpackedOf false b g)
      = unpackedOf negative m e := by
    have hsign : ∀ s : Sign, s * .positive = s := by
      rintro (_ | _) <;> rfl
    rcases Nat.eq_zero_or_pos a with rfl | ha
    · rw [Nat.cast_zero, zero_mul, zero_mul] at hnearest
      have hm := hnearest.eq_zero_of_nonpos le_rfl
      subst hm
      rw [unpackedOf, unpackedOf, unpackedOf, dif_pos hb]
      exact congrArg UnpackedFloat.zero (hsign _)
    · obtain ⟨-, hbit⟩ := (IsNearest.self b g).normal (Reading.isCanonical_of_ofFloat hread') hw
      have hlocates : Locates ((a * 2 ^ f * (b * 2 ^ g) : ℚ) / 2 ^ (f + g)) (a * b) .exact := by
        rw [Locates, zpow_add₀ (by norm_num), Nat.cast_mul]
        field_simp
      rw [← roundWithAccuracy_eq_unpackedOf hc hnearest hlocates
        (le_targetExponent_mul ha hbit (f + g)), unpackedOf, unpackedOf, dif_pos ha, dif_pos hb,
        UnpackedFloat.mul]
      simp only [signOf, hsign, if_neg Bool.false_ne_true]
  refine ⟨m, e, ?_, hnearest⟩
  have hpack := Reading.ofFloat_pack negative hc
  rw [← hmul, ← Reading.unpack_toModel hread, ← Reading.unpack_toModel hread'] at hpack
  apply hpack

/-- The quotient by a positive number, with its sign. -/
theorem HasValue.div {x y : Float} {v w : ℚ} (hx : HasValue x v) (hy : HasSize y false w)
    (hlt : |v / w| < overflowLimit) :
  RoundsValue (x / y) (v / w)
  := by
  obtain ⟨negative, hx⟩ := hx
  use negative
  cases negative
  · apply hx.div hy (lt_of_le_of_lt (le_abs_self _) hlt)
  · rw [if_pos rfl] at hx ⊢
    rw [← neg_div]
    apply hx.div hy
    rw [neg_div]
    apply lt_of_le_of_lt (neg_le_abs _) hlt

/-- The product with a number of at least one, with its sign. -/
theorem HasValue.mul {x y : Float} {v w : ℚ} (hx : HasValue x v) (hy : HasSize y false w)
    (hw : 1 ≤ w) (hlt : |v * w| < overflowLimit) :
  RoundsValue (x * y) (v * w)
  := by
  obtain ⟨negative, hx⟩ := hx
  use negative
  cases negative
  · apply hx.mul hy hw (lt_of_le_of_lt (le_abs_self _) hlt)
  · rw [if_pos rfl] at hx ⊢
    rw [← neg_mul]
    apply hx.mul hy hw
    rw [neg_mul]
    apply lt_of_le_of_lt (neg_le_abs _) hlt

/-! ### Differences -/

/-- An integer times a power of two is rounded to the number to which it goes. -/
theorem exists_normalize_eq {k f : Int} (hlt : |(k : ℚ) * 2 ^ f| < overflowLimit) :
  ∃ (negative : Bool) (m : Nat) (e : Int), IsCanonical m e ∧
    UnpackedFloat.normalize Format.binary64 k f .positive = unpackedOf negative m e ∧
    IsNearest (if negative then -(k * 2 ^ f) else k * 2 ^ f) m e
  := by
  rw [UnpackedFloat.normalize]
  rcases lt_trichotomy k 0 with hneg | rfl | hpos
  · obtain ⟨n, rfl⟩ := Int.exists_eq_neg_ofNat (le_of_lt hneg)
    have hvalue : -(((-(n : Int) : Int) : ℚ) * 2 ^ f) = n * 2 ^ f := by
      push_cast
      ring
    rw [← abs_neg, hvalue] at hlt
    obtain ⟨m, e, hc, hnearest⟩ :=
      exists_isNearest_of_lt (by positivity) (lt_of_le_of_lt (le_abs_self _) hlt)
    use true, m, e, hc
    rw [Int.compare_eq_lt.mpr hneg, if_pos rfl, hvalue]
    simp only [neg_neg, Int.toNat_natCast]
    exact ⟨round_eq (by omega) hc hnearest true, hnearest⟩
  · use false, 0, -1074, ⟨by decide, by decide, by decide, Or.inr rfl⟩, rfl
    rw [Int.cast_zero, zero_mul, if_neg Bool.false_ne_true]
    apply IsNearest.zero
  · obtain ⟨n, rfl⟩ := Int.eq_ofNat_of_zero_le (le_of_lt hpos)
    rw [Int.cast_natCast] at hlt ⊢
    obtain ⟨m, e, hc, hnearest⟩ :=
      exists_isNearest_of_lt (by positivity) (lt_of_le_of_lt (le_abs_self _) hlt)
    use false, m, e, hc
    rw [Int.compare_eq_gt.mpr hpos]
    simp only [Int.toNat_natCast]
    rw [if_neg Bool.false_ne_true]
    exact ⟨round_eq (by omega) hc hnearest false, hnearest⟩

/-- A sign applied to a natural number. -/
theorem cast_apply_signOf (negative : Bool) (n : Nat) :
  (((signOf negative).apply n : Int) : ℚ) = if negative then -(n : ℚ) else n
  := by
  cases negative
  · rfl
  · change ((-(n : Int) : Int) : ℚ) = _
    rw [Int.cast_neg, Int.cast_natCast, if_pos rfl]

/-- The difference of two finite numbers other than zero is the exact one, as an integer times a
power of two, rounded. -/
theorem exists_sub_eq_normalize {negative negative' : Bool} {a b : Nat} {f g : Int} {v w : ℚ}
    (ha : 0 < a) (hb : 0 < b) (hv : (a : ℚ) * 2 ^ f = if negative then -v else v)
    (hw : (b : ℚ) * 2 ^ g = if negative' then -w else w) :
  ∃ k e : Int, (k : ℚ) * 2 ^ e = v - w ∧
    UnpackedFloat.sub Format.binary64 (unpackedOf negative a f) (unpackedOf negative' b g)
      = UnpackedFloat.normalize Format.binary64 k e .positive
  := by
  have hleft := decreaseExponent_value a f (min f g)
  have hright := decreaseExponent_value b g (min f g)
  rw [decreaseExponent_of_le a (min_le_left f g)] at hleft
  rw [decreaseExponent_of_le b (min_le_right f g)] at hright
  -- The difference of the mantissas once both have the lesser exponent.
  use (signOf negative).apply (decreaseExponent a f (min f g)).1
    - (signOf negative').apply (decreaseExponent b g (min f g)).1, min f g
  constructor
  · have hsigned : ∀ (s : Bool) (n : Nat), (if s then -(n : ℚ) else n) * 2 ^ min f g
        = if s then -((n : ℚ) * 2 ^ min f g) else n * 2 ^ min f g := by
      rintro (_ | _) n
      · rfl
      · apply neg_mul
    rw [Int.cast_sub, cast_apply_signOf, cast_apply_signOf, sub_mul, hsigned, hsigned, hleft,
      hright, ← eq_of_size_eq hv, ← eq_of_size_eq hw]
  · rw [unpackedOf, unpackedOf, dif_pos ha, dif_pos hb]
    rfl

/-- The difference of two finite numbers other than zero is the number to which the exact one goes. -/
theorem exists_sub_eq_of_pos {negative negative' : Bool} {a b : Nat} {f g : Int} {v w : ℚ}
    (ha : 0 < a) (hb : 0 < b) (hv : (a : ℚ) * 2 ^ f = if negative then -v else v)
    (hw : (b : ℚ) * 2 ^ g = if negative' then -w else w) (hlt : |v - w| < overflowLimit) :
  ∃ (negative'' : Bool) (m : Nat) (e : Int), IsCanonical m e ∧
    UnpackedFloat.sub Format.binary64 (unpackedOf negative a f) (unpackedOf negative' b g)
      = unpackedOf negative'' m e ∧
    IsNearest (if negative'' then -(v - w) else v - w) m e
  := by
  obtain ⟨k, e, hvalue, hsub⟩ := exists_sub_eq_normalize ha hb hv hw
  rw [← hvalue] at hlt ⊢
  rw [hsub]
  apply exists_normalize_eq hlt

/-- The difference of two finite numbers is the exact one, rounded. -/
theorem exists_sub_eq {negative negative' : Bool} {a b : Nat} {f g : Int} {v w : ℚ}
    (hc : IsCanonical a f) (hc' : IsCanonical b g)
    (hv : (a : ℚ) * 2 ^ f = if negative then -v else v)
    (hw : (b : ℚ) * 2 ^ g = if negative' then -w else w) (hlt : |v - w| < overflowLimit) :
  ∃ (negative'' : Bool) (m : Nat) (e : Int), IsCanonical m e ∧
    UnpackedFloat.sub Format.binary64 (unpackedOf negative a f) (unpackedOf negative' b g)
      = unpackedOf negative'' m e ∧
    IsNearest (if negative'' then -(v - w) else v - w) m e
  := by
  rcases Nat.eq_zero_or_pos a with rfl | ha
  · obtain rfl := eq_zero_of_size_eq hv
    rcases Nat.eq_zero_or_pos b with rfl | hb
    · obtain rfl := eq_zero_of_size_eq hw
      use negative && !negative', 0, -1074, ⟨by decide, by decide, by decide, Or.inr rfl⟩
      constructor
      · cases negative <;> cases negative' <;> rfl
      · rw [sub_zero, neg_zero, ite_self]
        apply IsNearest.zero
    · use !negative', b, g, hc'
      rw [unpackedOf, unpackedOf, unpackedOf, dif_pos hb, dif_pos hb]
      constructor
      · cases negative' <;> rfl
      · have hvalue : (if (!negative') = true then -(0 - w) else 0 - w) = b * 2 ^ g := by
          rw [hw, zero_sub, neg_neg]
          cases negative' <;> rfl
        rw [hvalue]
        apply IsNearest.self
  · rcases Nat.eq_zero_or_pos b with rfl | hb
    · obtain rfl := eq_zero_of_size_eq hw
      use negative, a, f, hc
      rw [unpackedOf, unpackedOf, dif_pos ha, sub_zero, ← hv]
      use rfl
      apply IsNearest.self
    · apply exists_sub_eq_of_pos ha hb hv hw hlt

/-- The difference of two finite numbers, rounded. -/
theorem HasValue.sub {x y : Float} {v w : ℚ} (hx : HasValue x v) (hy : HasValue y w)
    (hlt : |v - w| < overflowLimit) :
  RoundsValue (x - y) (v - w)
  := by
  obtain ⟨negative, a, f, hread, hv⟩ := hx
  obtain ⟨negative', b, g, hread', hw⟩ := hy
  obtain ⟨negative'', m, e, hc, hsub, hnearest⟩ := exists_sub_eq
    (Reading.isCanonical_of_ofFloat hread) (Reading.isCanonical_of_ofFloat hread') hv hw hlt
  refine ⟨negative'', m, e, ?_, hnearest⟩
  have hpack := Reading.ofFloat_pack negative'' hc
  rw [← hsub, ← Reading.unpack_toModel hread, ← Reading.unpack_toModel hread'] at hpack
  apply hpack

/-! ### Sums -/

/-- The opposite number has the opposite value. -/
theorem HasValue.neg {x : Float} {v : ℚ} (h : HasValue x v) :
  HasValue (-x) (-v)
  := by
  obtain ⟨negative, m, e, hread, hv⟩ := h
  refine ⟨!negative, m, e, Reading.ofFloat_neg hread, ?_⟩
  rw [hv, neg_neg]
  cases negative <;> rfl

/-- A sum is the difference from the opposite number. -/
theorem add_unpackedOf (negative negative' : Bool) (m m' : Nat) (e e' : Int) :
  UnpackedFloat.add Format.binary64 (unpackedOf negative m e) (unpackedOf negative' m' e')
    = UnpackedFloat.sub Format.binary64 (unpackedOf negative m e) (unpackedOf (!negative') m' e')
  := by
  have happly : ∀ n : Int, (signOf negative').apply n = -(signOf (!negative')).apply n := by
    intro n
    cases negative'
    · exact (neg_neg n).symm
    · rfl
  unfold unpackedOf
  split
  · split
    · simp only [UnpackedFloat.add, UnpackedFloat.sub, happly, ← sub_eq_add_neg]
    · rfl
  · split
    · cases negative' <;> rfl
    · cases negative <;> cases negative' <;> rfl

/-- The sum of two finite numbers is the difference of the first one and the opposite of the second
one. -/
theorem HasValue.add_eq_sub_neg {x y : Float} {v w : ℚ} (hx : HasValue x v) (hy : HasValue y w) :
  x + y = x - -y
  := by
  obtain ⟨negative, m, e, hread, -⟩ := hx
  obtain ⟨negative', m', e', hread', -⟩ := hy
  change Float.ofModel (pack (UnpackedFloat.add Format.binary64 x.toModel.unpack y.toModel.unpack))
    = Float.ofModel (pack (UnpackedFloat.sub Format.binary64 x.toModel.unpack (-y).toModel.unpack))
  rw [Reading.unpack_toModel hread, Reading.unpack_toModel hread',
    Reading.unpack_toModel (Reading.ofFloat_neg hread'), add_unpackedOf]

/-- The sum of two finite numbers, rounded. -/
theorem HasValue.add {x y : Float} {v w : ℚ} (hx : HasValue x v) (hy : HasValue y w)
    (hlt : |v + w| < overflowLimit) :
  RoundsValue (x + y) (v + w)
  := by
  rw [← sub_neg_eq_add] at hlt ⊢
  rw [hx.add_eq_sub_neg hy]
  apply hx.sub hy.neg hlt

end Calculator
