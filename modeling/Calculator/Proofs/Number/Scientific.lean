import Calculator.Proofs.Number.Nearest

/-!
# Reading decimals

`Float.ofScientific` gives the number that is nearest to a decimal
(`ofFloat_ofScientific`).  A decimal with few digits and a small power of ten is the quotient
of two numbers that are held exactly (`ofFloat_div`); any other one is scaled by a power of two
to a quotient of natural numbers with enough bits (`unpacked_ofScientific_eq`).  Both round a
quotient of natural numbers once (`div_eq`), and the remainder of the division says where the
quotient lies (`locates_div`).
-/

namespace Calculator

open Float.Model Float.Model.UnpackedFloat

/-! ### Quotients -/

/-- The remainder says where a quotient lies. -/
theorem locates_div {n d : Nat} (hd : 0 < d) :
  Locates ((n : ℚ) / d) (n / d) (accuracyOfFraction (n % d) d)
  := by
  have hpos : (0 : ℚ) < d := by exact_mod_cast hd
  have hdiv : (n : ℚ) / d = (n / d : Nat) + ((n % d : Nat) : ℚ) / d := by
    have hn : (n : ℚ) = (n / d : Nat) * d + (n % d : Nat) := by
      exact_mod_cast (Nat.div_add_mod' n d).symm
    rw [div_eq_iff (ne_of_gt hpos), add_mul, div_mul_cancel₀ _ (ne_of_gt hpos)]
    apply hn
  have hone : ((n % d : Nat) : ℚ) / d < 1 := by
    rw [div_lt_one hpos]
    exact_mod_cast Nat.mod_lt n hd
  rw [hdiv, accuracyOfFraction]
  by_cases hzero : n % d = 0
  · rw [if_pos hzero, hzero, Nat.cast_zero, zero_div, add_zero]
    rfl
  · rw [if_neg hzero]
    have hr : (0 : ℚ) < (n % d : Nat) / d := by
      apply div_pos _ hpos
      exact_mod_cast Nat.pos_of_ne_zero hzero
    cases hcompare : compare (2 * (n % d)) d with
    | lt =>
      have hhalf : ((n % d : Nat) : ℚ) / d < 1 / 2 := by
        rw [div_lt_div_iff₀ hpos (by norm_num)]
        exact_mod_cast (by linarith [Nat.compare_eq_lt.mp hcompare] : n % d * 2 < 1 * d)
      constructor <;> linarith
    | eq =>
      have hhalf : ((n % d : Nat) : ℚ) / d = 1 / 2 := by
        rw [div_eq_div_iff (ne_of_gt hpos) (by norm_num)]
        exact_mod_cast (by linarith [Nat.compare_eq_eq.mp hcompare] : n % d * 2 = 1 * d)
      rw [hhalf]
      rfl
    | gt =>
      have hhalf : 1 / 2 < ((n % d : Nat) : ℚ) / d := by
        rw [div_lt_div_iff₀ (by norm_num) hpos]
        exact_mod_cast (by linarith [Nat.compare_eq_gt.mp hcompare] : 1 * d < n % d * 2)
      constructor <;> linarith

/-- A quotient of mantissas has enough bits once the dividend is shifted far enough. -/
theorem le_log2_div {a b : Nat} (shift : Nat) (ha : 0 < a) (hb : 0 < b)
    (hshift : b.log2 + 53 ≤ a.log2 + shift) :
  52 ≤ (a <<< shift / b).log2
  := by
  have hquotient : 2 ^ 52 ≤ a <<< shift / b := by
    rw [Nat.le_div_iff_mul_le hb, Nat.shiftLeft_eq]
    calc
      2 ^ 52 * b ≤ 2 ^ 52 * 2 ^ (b.log2 + 1) := by
        apply Nat.mul_le_mul_left
        apply Nat.le_of_lt Nat.lt_log2_self
      _ = 2 ^ (b.log2 + 53) := by rw [← Nat.pow_add, Nat.add_comm 52, Nat.add_assoc]
      _ ≤ 2 ^ (a.log2 + shift) := Nat.pow_le_pow_right (by decide) hshift
      _ = 2 ^ a.log2 * 2 ^ shift := Nat.pow_add 2 a.log2 shift
      _ ≤ a * 2 ^ shift := by
        apply Nat.mul_le_mul_right
        apply Nat.log2_self_le (Nat.ne_of_gt ha)
  rw [Nat.le_log2 (by omega)]
  apply hquotient

/-- A quotient of two finite numbers is located closely enough for rounding. -/
theorem divCore_locates {a b : Nat} {f g : Int} (ha : 0 < a) (hb : 0 < b) :
  ∃ (n : Nat) (h : Int) (accuracy : Accuracy),
    divCore Format.binary64 a f b g = (n, h, accuracy) ∧
    Locates (a * 2 ^ f / (b * 2 ^ g) / 2 ^ h) n accuracy ∧
    h ≤ Format.binary64.targetExponent (totalExponent n h)
  := by
  have hbpos : (0 : ℚ) < b := by exact_mod_cast hb
  rw [divCore]
  generalize htarget : Format.binary64.targetExponent (totalExponent a f - totalExponent b g)
    = target
  have hbits : target = max (a.log2 + 1 + f - (b.log2 + 1 + g) - 53) (-1074) := htarget.symm
  generalize hleast : min (f - g) target = least
  generalize hshift : (f - g - least).toNat = shift
  have hsum : f - g - least = shift := by omega
  have hvalue : (a : ℚ) * 2 ^ f / (b * 2 ^ g) / 2 ^ least = (a <<< shift : Nat) / b := by
    have hpow : (2 : ℚ) ^ f = 2 ^ shift * 2 ^ g * 2 ^ least := by
      rw [← zpow_natCast, ← zpow_add₀ (by norm_num), ← zpow_add₀ (by norm_num)]
      congr 1
      omega
    rw [Nat.shiftLeft_eq, Nat.cast_mul, Nat.cast_pow, Nat.cast_ofNat, hpow]
    field_simp
  use a <<< shift / b, least, accuracyOfFraction (a <<< shift % b) b, rfl
  constructor
  · rw [hvalue]
    apply locates_div hb
  · rw [targetExponent_binary64]
    by_cases hlow : least ≤ -1074
    · apply le_max_of_le_right hlow
    · have hlog := le_log2_div shift ha hb (by omega)
      apply le_max_of_le_left
      omega

/-- Division by a positive number gives the number nearest to the quotient. -/
theorem div_eq {s : Sign} {a b m : Nat} {f g e : Int} (ha : 0 < a) (hb : 0 < b)
    (hc : IsCanonical m e) (hm : 0 < m) (hv : IsNearest (a * 2 ^ f / (b * 2 ^ g)) m e) :
  UnpackedFloat.div Format.binary64 (.finite s a f ha) (.finite .positive b g hb)
    = .finite s m e hm
  := by
  obtain ⟨n, h, accuracy, hcore, hlocates, hle⟩ := divCore_locates ha hb (f := f) (g := g)
  have hsign : s / .positive = s := by cases s <;> rfl
  rw [UnpackedFloat.div, hcore]
  simp only [hsign]
  apply roundWithAccuracy_eq hc hm hv hlocates hle

/-! ### Products and whole numbers -/

/-- A number is the nearest to its own value. -/
theorem IsNearest.self (m : Nat) (e : Int) :
  IsNearest (m * 2 ^ e) m e
  := by
  have hpos : (0 : ℚ) < 2 ^ e := by positivity
  have hgap := gapBelow_pos m e
  constructor
  · gcongr
    linarith
  · gcongr
    linarith
  · rintro (heq | heq)
    · have hcancel := mul_right_cancel₀ (ne_of_gt hpos) heq
      linarith
    · have hcancel := mul_right_cancel₀ (ne_of_gt hpos) heq
      linarith

/-- Multiplication by a positive number gives the number nearest to the product. -/
theorem mul_eq {s : Sign} {a b m : Nat} {f g e : Int} (ha : 0 < a) (hb : 0 < b)
    (hc : IsCanonical m e) (hm : 0 < m) (hv : IsNearest (a * 2 ^ f * (b * 2 ^ g)) m e)
    (hle : f + g ≤ Format.binary64.targetExponent (totalExponent (a * b) (f + g))) :
  UnpackedFloat.mul Format.binary64 (.finite s a f ha) (.finite .positive b g hb)
    = .finite s m e hm
  := by
  have hlocates : Locates ((a * 2 ^ f * (b * 2 ^ g) : ℚ) / 2 ^ (f + g)) (a * b) .exact := by
    rw [Locates, zpow_add₀ (by norm_num), Nat.cast_mul]
    field_simp
  have hsign : s * .positive = s := by cases s <;> rfl
  rw [UnpackedFloat.mul, hsign]
  apply roundWithAccuracy_eq hc hm hv hlocates hle

/-- A power with an integer exponent as a quotient of powers. -/
theorem zpow_eq_div {base : ℚ} (hbase : base ≠ 0) (e : Int) :
  base ^ e = base ^ e.toNat / base ^ (-e).toNat
  := by
  rw [← zpow_natCast, ← zpow_natCast, ← zpow_sub₀ hbase]
  congr 1
  omega

/-- The numerator of a positive mantissa and an exponent is positive. -/
theorem scaledNumerator_pos {m : Nat} (hm : 0 < m) (e : Int) :
  0 < scaledNumerator m e
  := by
  rw [scaledNumerator, Nat.pow_eq]
  positivity

/-- The denominator of a mantissa and an exponent is positive. -/
theorem scaledDenominator_pos (e : Int) :
  0 < scaledDenominator e
  := by
  rw [scaledDenominator, Nat.pow_eq]
  positivity

/-- The value of a mantissa and an exponent as a quotient of natural numbers. -/
theorem scaledNumerator_div_scaledDenominator (m : Nat) (e : Int) :
  (scaledNumerator m e : ℚ) / scaledDenominator e = m * 2 ^ e
  := by
  rw [scaledNumerator, scaledDenominator, zpow_eq_div (by norm_num), mul_div_assoc', Nat.pow_eq,
    Nat.pow_eq]
  push_cast
  rfl

/-- A natural number of at most fifty-three bits, shifted as far as there is room, is canonical,
also with a small power of two as a factor. -/
theorem isCanonical_shift {n k : Nat} (hpos : 0 < n) (hlt : n < 2 ^ 53) (hk : k < 64) :
  IsCanonical (n * 2 ^ (52 - n.log2)) (-(52 - n.log2 : Nat) + k)
  := by
  have hlog : n.log2 < 53 := (Nat.log2_lt (Nat.ne_of_gt hpos)).mpr hlt
  have hlow : 2 ^ 52 = 2 ^ n.log2 * 2 ^ (52 - n.log2) := by
    rw [← Nat.pow_add]
    congr 1
    omega
  have hhigh : 2 ^ 53 = 2 ^ (n.log2 + 1) * 2 ^ (52 - n.log2) := by
    rw [← Nat.pow_add]
    congr 1
    omega
  constructor
  · rw [hhigh]
    gcongr
    apply Nat.lt_log2_self
  · omega
  · omega
  · left
    rw [hlow]
    gcongr
    apply Nat.log2_self_le (Nat.ne_of_gt hpos)

/-- Conversion rounds a natural number to the nearest number. -/
theorem ofNat_eq {n m : Nat} {e : Int} (hn : 0 < n) (hc : IsCanonical m e) (hm : 0 < m)
    (h : IsNearest n m e) :
  UnpackedFloat.ofNat Format.binary64 n = unpackedOf false m e
  := by
  generalize hcount : (-max ((n.log2 : Int) + 1 + 0 - 53) (-1074)).toNat = count
  have hlocates : Locates ((n : ℚ) / 2 ^ (-(count : Int))) (n * 2 ^ count) .exact := by
    rw [Locates, zpow_neg, zpow_natCast, div_inv_eq_mul]
    push_cast
    rfl
  have htarget : -(count : Int)
      ≤ Format.binary64.targetExponent (totalExponent (n * 2 ^ count) (-(count : Int))) := by
    have hbits : n.log2 + count ≤ (n * 2 ^ count).log2 := by
      rw [Nat.le_log2 (by positivity), Nat.pow_add]
      gcongr
      apply Nat.log2_self_le (Nat.ne_of_gt hn)
    rw [targetExponent_binary64]
    apply le_max_of_le_left
    omega
  rw [unpackedOf, dif_pos hm]
  apply Eq.trans _ (roundWithAccuracy_eq hc hm h hlocates htarget .positive)
  rw [UnpackedFloat.ofNat, UnpackedFloat.ofInt, UnpackedFloat.normalize,
    Int.compare_eq_gt.mpr (by omega)]
  simp only [Int.toNat_natCast, UnpackedFloat.round, targetExponent_binary64, decreaseExponent,
    Int.zero_sub, hcount, Nat.shiftLeft_eq]

/-- A natural number of at most sixty-four bits is rounded to the nearest number. -/
theorem ofFloat_floatOfNat {n m : Nat} {e : Int} (hn : 0 < n) (hlt : n < 2 ^ 64)
    (hc : IsCanonical m e) (hm : 0 < m) (h : IsNearest n m e) :
  Reading.ofFloat (floatOfNat n) = .finite false m e
  := by
  have hbits : (UInt64.ofNat n).toNat = n := UInt64.toNat_ofNat_of_lt hlt
  have hpack := Reading.ofFloat_pack false hc
  rw [← ofNat_eq hn hc hm h, ← hbits] at hpack
  apply hpack

/-- A natural number of at most fifty-three bits times a power of two is held exactly, as long as
the product has at most sixty-four bits. -/
theorem ofFloat_floatOfNat_mul {n k : Nat} (hpos : 0 < n) (hn : n < 2 ^ 53)
    (hlt : n * 2 ^ k < 2 ^ 64) :
  ∃ (m : Nat) (e : Int), Reading.ofFloat (floatOfNat (n * 2 ^ k)) = .finite false m e ∧ 0 < m ∧
    (m : ℚ) * 2 ^ e = (n * 2 ^ k : Nat)
  := by
  have hk : k < 64 := by
    apply (Nat.pow_lt_pow_iff_right (by decide : 1 < 2)).mp
    apply Nat.lt_of_le_of_lt (Nat.le_mul_of_pos_left _ hpos) hlt
  have hvalue : ((n * 2 ^ (52 - n.log2) : Nat) : ℚ) * 2 ^ (-(52 - n.log2 : Nat) + k : Int)
      = (n * 2 ^ k : Nat) := by
    rw [zpow_two_add, zpow_neg, zpow_natCast]
    push_cast
    field_simp
  refine ⟨_, _, ofFloat_floatOfNat (Nat.mul_pos hpos (Nat.two_pow_pos k)) hlt
    (isCanonical_shift hpos hn hk) (by positivity) ?_, by positivity, hvalue⟩
  rw [← hvalue]
  apply IsNearest.self

/-- A natural number of at most fifty-three bits is held exactly. -/
theorem ofFloat_toFloat {n : Nat} (hpos : 0 < n) (hlt : n < 2 ^ 53) :
  ∃ (m : Nat) (e : Int), Reading.ofFloat n.toUInt64.toFloat = .finite false m e ∧ 0 < m ∧
    (m : ℚ) * 2 ^ e = n
  := by
  have hexact := ofFloat_floatOfNat_mul (k := 0) hpos hlt (by omega)
  rw [Nat.pow_zero, Nat.mul_one] at hexact
  apply hexact

/-! ### Decimals -/

/-- Whether a reading is a positive natural number. -/
def Reading.isNat (n : Nat) : Reading → Bool
  | .finite false m e => decide (0 < m) && scaledNumerator m e == n * scaledDenominator e
  | _ => false

/-- What is read as a natural number has its value. -/
theorem Reading.exists_of_isNat {n : Nat} {reading : Reading} (h : reading.isNat n = true) :
  ∃ (m : Nat) (e : Int), reading = .finite false m e ∧ 0 < m ∧ (m : ℚ) * 2 ^ e = n
  := by
  cases reading with
  | finite negative m e =>
    cases negative with
    | true => cases h
    | false =>
      simp only [isNat, Bool.and_eq_true, decide_eq_true_eq, beq_iff_eq] at h
      obtain ⟨hm, hscaled⟩ := h
      use m, e, rfl, hm
      have hpos : (0 : ℚ) < scaledDenominator e := by
        exact_mod_cast scaledDenominator_pos e
      rw [← scaledNumerator_div_scaledDenominator, div_eq_iff (ne_of_gt hpos)]
      exact_mod_cast hscaled
  | nan | infinite => cases h

/-- The powers of ten that are tabulated are exact. -/
theorem isNat_powersOfTen :
  ∀ (k : Nat) (_ : k < Float.exactlyRepresentablePowersOfTen.size),
    (Reading.ofFloat Float.exactlyRepresentablePowersOfTen[k]).isNat (10 ^ k) = true
  := by
  decide +kernel

/-- Every value that goes to a positive number is at least half of the least one. -/
theorem IsNearest.half_min_le {v : ℚ} {m : Nat} {e : Int} (h : IsNearest v m e)
    (hc : IsCanonical m e) (hm : 0 < m) :
  1 / 2 * 2 ^ (-1074 : Int) ≤ v
  := by
  have hmantissa : (1 : ℚ) ≤ m := by exact_mod_cast hm
  have hmin : (2 : ℚ) ^ (-1074 : Int) ≤ 2 ^ e := zpow_le_zpow_right₀ (by norm_num) hc.low
  have hhalf : (1 / 2 : ℚ) ≤ m - 1 / 2 := by linarith
  calc
    1 / 2 * (2 : ℚ) ^ (-1074 : Int) ≤ (m - 1 / 2) * 2 ^ e := by gcongr
    _ ≤ v := h.le

/-- A quotient that is not too small has not too large a power of ten below it. -/
theorem le_log2_of_le_div {n k p : Nat} (h : 1 / 2 * (2 : ℚ) ^ (-p : Int) ≤ n / 10 ^ k) :
  k ≤ p + 1 + n.log2
  := by
  rw [zpow_neg, zpow_natCast, ← one_div, div_mul_div_comm, one_mul, ← pow_succ',
    le_div_iff₀ (by positivity), div_mul_eq_mul_div, one_mul, div_le_iff₀ (by positivity)] at h
  have hten : 10 ^ k ≤ n * 2 ^ (p + 1) := by exact_mod_cast h
  have hlt : 2 ^ k < 2 ^ (n.log2 + 1 + (p + 1)) := by
    calc
      2 ^ k ≤ 10 ^ k := Nat.pow_le_pow_left (by decide) k
      _ ≤ n * 2 ^ (p + 1) := hten
      _ < 2 ^ (n.log2 + 1) * 2 ^ (p + 1) := by
        apply Nat.mul_lt_mul_of_pos_right Nat.lt_log2_self
        positivity
      _ = 2 ^ (n.log2 + 1 + (p + 1)) := (Nat.pow_add 2 (n.log2 + 1) (p + 1)).symm
  have hk := (Nat.pow_lt_pow_iff_right (by decide)).mp hlt
  omega

/-- The exact arithmetic gives the number that is nearest to a decimal. -/
theorem unpacked_ofScientific_eq {n k m : Nat} {e : Int} (hn : 0 < n) (hc : IsCanonical m e)
    (hm : 0 < m) (h : IsNearest (n / 10 ^ k) m e) :
  UnpackedFloat.ofScientific Format.binary64 n (Int.negOfNat k) = .finite .positive m e hm
  := by
  have hk : k ≤ 1074 + 1 + n.log2 := le_log2_of_le_div (h.half_min_le hc hm)
  have hneg : Int.negOfNat k = -(k : Int) := Int.negOfNat_eq
  have hlimit : (2 : Int) ^ Format.binary64.exponentBits = 2048 := rfl
  rw [UnpackedFloat.ofScientific, dif_neg (Nat.ne_of_gt hn), hneg, if_neg (by omega),
    if_neg (by omega)]
  by_cases hzero : k = 0
  · subst hzero
    have hvalue : ((n <<< 53 : Nat) : ℚ) * 2 ^ (-(53 : Nat) : Int)
        * ((10 ^ 0 : Nat) * 2 ^ (0 : Int)) = n / 10 ^ 0 := by
      rw [Nat.shiftLeft_eq, zpow_neg, zpow_natCast, zpow_zero, pow_zero, pow_zero, Nat.cast_mul,
        Nat.cast_pow, Nat.cast_ofNat, Nat.cast_one]
      field_simp
    have hlog := (Nat.le_log2 (Nat.ne_of_gt (Nat.shiftLeft_pos_iff.mpr hn))).mpr
      (Nat.shiftLeft_eq n 53 ▸ Nat.le_mul_of_pos_left (2 ^ 53) hn)
    rw [← hvalue] at h
    rw [if_pos (by decide)]
    apply mul_eq _ _ hc hm h
    rw [targetExponent_binary64, pow_zero, mul_one]
    apply le_max_of_le_left
    change (-(53 : Nat) : Int) + 0 ≤ ((n <<< 53).log2 : Int) + 1 + (-(53 : Nat) + 0) - 53
    omega
  · rw [if_neg (by omega)]
    apply div_eq _ _ hc hm
    rw [zpow_zero, mul_one, mul_one, Int.neg_neg, Int.toNat_natCast, Nat.cast_pow]
    apply h

/-- The quotient by a positive finite number is the number nearest to it. -/
theorem ofFloat_div {x y : Float} {negative : Bool} {a b m : Nat} {f g e : Int}
    (hx : Reading.ofFloat x = .finite negative a f) (ha : 0 < a)
    (hy : Reading.ofFloat y = .finite false b g) (hb : 0 < b) (hc : IsCanonical m e) (hm : 0 < m)
    (h : IsNearest (a * 2 ^ f / (b * 2 ^ g)) m e) :
  Reading.ofFloat (x / y) = .finite negative m e
  := by
  have hpack := Reading.ofFloat_pack negative hc
  change Reading.ofFloat (.ofModel (Float.Model.pack
    (UnpackedFloat.div Format.binary64 x.toModel.unpack y.toModel.unpack))) = _
  rw [Reading.unpack_toModel hx, Reading.unpack_toModel hy, unpackedOf, unpackedOf, dif_pos ha,
    dif_pos hb]
  rw [unpackedOf, dif_pos hm, ← div_eq ha hb hc hm h] at hpack
  apply hpack

/-- The number that is nearest to a decimal. -/
theorem ofFloat_ofScientific {n k m : Nat} {e : Int} (hc : IsCanonical m e) (hm : 0 < m)
    (h : IsNearest (n / 10 ^ k) m e) :
  Reading.ofFloat (Float.ofScientific n true k) = .finite false m e
  := by
  have hn : 0 < n := by
    have hmin := h.half_min_le hc hm
    by_contra hzero
    rw [Nat.eq_zero_of_not_pos hzero, Nat.cast_zero, zero_div] at hmin
    have hpos : (0 : ℚ) < 1 / 2 * 2 ^ (-1074 : Int) := by positivity
    linarith
  rw [Float.ofScientific]
  by_cases hfast : n < 2 ^ 53 ∧ k ≤ 22
  · rw [dif_pos hfast, if_pos rfl]
    obtain ⟨a, f, ha, hapos, havalue⟩ := ofFloat_toFloat hn hfast.1
    obtain ⟨b, g, hb, hbpos, hbvalue⟩ :=
      Reading.exists_of_isNat (isNat_powersOfTen k (Nat.lt_succ_of_le hfast.2))
    rw [Nat.cast_pow, Nat.cast_ofNat] at hbvalue
    apply ofFloat_div ha hapos hb hbpos hc hm
    rw [havalue, hbvalue]
    apply h
  · rw [dif_neg hfast, if_pos rfl]
    have hpack := Reading.ofFloat_pack false hc
    rw [unpackedOf, dif_pos hm] at hpack
    change Reading.ofFloat (.ofModel (Float.Model.pack
      (UnpackedFloat.ofScientific Format.binary64 n (Int.negOfNat k)))) = _
    rw [unpacked_ofScientific_eq hn hc hm h]
    apply hpack

end Calculator
