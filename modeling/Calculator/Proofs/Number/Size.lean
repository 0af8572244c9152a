import Calculator.Proofs.Number.Scientific

/-!
# Sizes of numbers

The arithmetic of `Float` in terms of signs and exact sizes.  `HasSize x negative v` says that
a number has a sign and a positive size, and `RoundsSize x negative v` that its size is the one
to which `v` goes.

* Every value that is not too small or too large goes to some number (`exists_isNearest`), and
  to only one (`IsNearest.unique`), so that a sign and a value determine a number
  (`RoundsSize.eq`).
* Products and quotients round the exact product and the exact quotient (`HasSize.mul`,
  `HasSize.div`).
* A value and the value times a power of two go to numbers that differ by this power
  (`RoundsSize.scale`).
-/

namespace Calculator

open Float.Model Float.Model.UnpackedFloat

/-! ### The nearest number -/

/-- Of two whole numbers that are nearest to a value none is larger. -/
theorem RoundsTo.le {t : ℚ} {m n : Nat} (hm : RoundsTo t m) (hn : RoundsTo t n) :
  n ≤ m
  := by
  by_contra hlt
  have hsucc : ((m + 1 : Nat) : ℚ) ≤ n := by exact_mod_cast Nat.lt_of_not_le hlt
  push_cast at hsucc
  -- The value lies in the middle between the two, which are next to each other and both even.
  have heven := hm.tie (Or.inr (by linarith [hm.high, hn.low]))
  have heven' := hn.tie (Or.inl (by linarith [hm.high, hn.low]))
  have hle : (n : ℚ) ≤ (m + 1 : Nat) := by
    push_cast
    linarith [hm.high, hn.low]
  rw [Nat.cast_le] at hle
  omega

/-- Only one whole number is nearest to a value. -/
theorem RoundsTo.unique {t : ℚ} {m n : Nat} (hm : RoundsTo t m) (hn : RoundsTo t n) :
  m = n
  := Nat.le_antisymm (hn.le hm) (hm.le hn)

/-- Some whole number is nearest to a value. -/
theorem exists_roundsTo {t : ℚ} (ht : 0 ≤ t) :
  ∃ n : Nat, RoundsTo t n
  := by
  have hle := Nat.floor_le ht
  have hlt := Nat.lt_floor_add_one t
  rcases lt_trichotomy t (⌊t⌋₊ + 1 / 2) with hhalf | hhalf | hhalf
  · use ⌊t⌋₊
    constructor
    · linarith
    · linarith
    · rintro (heq | heq) <;> linarith
  · rcases Nat.mod_two_eq_zero_or_one ⌊t⌋₊ with heven | hodd
    · use ⌊t⌋₊
      constructor
      · linarith
      · linarith
      · intro _
        apply heven
    · use ⌊t⌋₊ + 1
      constructor
      · push_cast
        linarith
      · push_cast
        linarith
      · intro _
        omega
  · use ⌊t⌋₊ + 1
    constructor
    · push_cast
      linarith
    · push_cast
      linarith
    · push_cast
      rintro (heq | heq) <;> linarith

namespace IsNearest

/-- A mantissa to which a value goes makes the nearest number, if it is not a power of two
above the value. -/
theorem of_roundsTo {v : ℚ} {m : Nat} {e : Int} (h : RoundsTo (v / 2 ^ e) m)
    (hle : m = 2 ^ 52 → m * 2 ^ e ≤ v) :
  IsNearest v m e
  := by
  have hpos : (0 : ℚ) < 2 ^ e := by positivity
  have hlow := (le_div_iff₀ hpos).mp h.low
  have hhigh := (div_le_iff₀ hpos).mp h.high
  have hgap := gapBelow_pos m e
  by_cases hpower : m = 2 ^ 52
  · have hv := hle hpower
    have hbelow : (m - gapBelow m e) * 2 ^ e < m * 2 ^ e := by
      gcongr
      linarith
    constructor
    · linarith
    · apply hhigh
    · intro _
      rw [hpower]
      decide
  · have hhalf : gapBelow m e = 1 / 2 := if_neg fun h => hpower h.1
    constructor
    · rw [hhalf]
      apply hlow
    · apply hhigh
    · rw [hhalf, ← div_eq_iff (ne_of_gt hpos), ← div_eq_iff (ne_of_gt hpos)]
      apply h.tie

/-- A value that is nearly a power of two goes to it. -/
theorem of_carry {v : ℚ} {e : Int} (h : RoundsTo (v / 2 ^ e) (2 ^ 53)) (hlt : v < 2 ^ 53 * 2 ^ e)
    (he : -1074 ≤ e) :
  IsNearest v (2 ^ 52) (e + 1)
  := by
  have hpos : (0 : ℚ) < 2 ^ e := by positivity
  have hlow := (le_div_iff₀ hpos).mp h.low
  have hgap : gapBelow (2 ^ 52) (e + 1) = 1 / 4 := if_pos ⟨rfl, by omega⟩
  have hdouble : (2 : ℚ) ^ (e + 1) = 2 * 2 ^ e := zpow_two_add e 1
  constructor
  · rw [hgap, hdouble]
    push_cast at hlow ⊢
    linarith
  · rw [hdouble]
    push_cast
    linarith
  · intro _
    decide

/-- Only one number is nearest to a value. -/
theorem unique {v : ℚ} {m m' : Nat} {e e' : Int} (h : IsNearest v m e) (hc : IsCanonical m e)
    (hm : 0 < m) (h' : IsNearest v m' e') (hc' : IsCanonical m' e') :
  m = m' ∧ e = e'
  := by
  have hpos : 0 < v := lt_of_lt_of_le (by positivity) (h.half_min_le hc hm)
  obtain ⟨k, hlow, hhigh⟩ := exists_mem_Ico_zpow hpos (by norm_num : (1 : ℚ) < 2)
  obtain ⟨target, htarget⟩ : ∃ target : Int, target = max (k - 52) (-1074) := ⟨_, rfl⟩
  have hmin : -1074 ≤ target := by omega
  have hlt : v < 2 ^ (target + 53) := by
    apply lt_of_lt_of_le hhigh
    apply zpow_le_zpow_right₀ (by norm_num)
    omega
  have hle : target = -1074 ∨ (2 : ℚ) ^ (target + 52) ≤ v := by
    rcases max_choice (k - 52) (-1074) with heq | heq
    · right
      rw [htarget, heq, Int.sub_add_cancel]
      apply hlow
    · left
      rw [htarget, heq]
  rcases h.target hc hmin hlt hle with ⟨he, hround⟩ | ⟨he, hm, hround⟩
  · rcases h'.target hc' hmin hlt hle with ⟨he', hround'⟩ | ⟨he', hm', hround'⟩
    · have heq : e = e' := by omega
      rw [heq] at hround
      use hround.unique hround', heq
    · have heq : e = e' - 1 := by omega
      rw [heq] at hround
      have hcarry := hround.unique hround'
      have hmantissa := hc.lt
      omega
  · rcases h'.target hc' hmin hlt hle with ⟨he', hround'⟩ | ⟨he', hm', hround'⟩
    · have heq : e' = e - 1 := by omega
      rw [heq] at hround'
      have hcarry := hround'.unique hround
      have hmantissa := hc'.lt
      omega
    · use hm.trans hm'.symm
      omega

/-- A value of at least one goes to a number with fifty-three bits. -/
theorem normal {v : ℚ} {m : Nat} {e : Int} (h : IsNearest v m e) (hc : IsCanonical m e)
    (hv : 1 ≤ v) :
  -53 < e ∧ 2 ^ 52 ≤ m
  := by
  have hzero : (2 : ℚ) ^ (0 : Int) < 2 ^ (e + 53) := lt_of_le_of_lt hv (h.lt_zpow hc)
  have hexponent := zpow_two_lt_iff.mp hzero
  use by omega
  apply hc.normal.resolve_right
  omega

/-- The nearest number grows with the value by a power of two. -/
theorem scale {v : ℚ} {m : Nat} {e : Int} (h : IsNearest v m e) (he : -1074 < e) (k : Nat) :
  IsNearest (v * 2 ^ k) m (e + k)
  := by
  have hpos : (0 : ℚ) < 2 ^ k := by positivity
  have hgap : gapBelow m (e + k) = gapBelow m e := by
    unfold gapBelow
    have heq : -1074 < e + k ↔ -1074 < e := by omega
    simp only [heq]
  have hscale : ∀ t : ℚ, t * 2 ^ (e + k) = t * 2 ^ e * 2 ^ k := by
    intro t
    rw [zpow_two_add]
    ring
  constructor
  · rw [hgap, hscale]
    gcongr
    apply h.low
  · rw [hscale]
    gcongr
    apply h.high
  · rw [hgap, hscale, hscale, mul_left_inj' (ne_of_gt hpos), mul_left_inj' (ne_of_gt hpos)]
    apply h.tie

end IsNearest

/-- Every value in the range of the normal numbers goes to one of them. -/
theorem exists_isNearest {v : ℚ} (hlow : 2 ^ (-1022 : Int) ≤ v) (hhigh : v < 2 ^ (1023 : Int)) :
  ∃ (m : Nat) (e : Int), IsCanonical m e ∧ 0 < m ∧ IsNearest v m e
  := by
  have hpos : 0 < v := lt_of_lt_of_le (by positivity) hlow
  obtain ⟨k, hle, hlt⟩ := exists_mem_Ico_zpow hpos (by norm_num : (1 : ℚ) < 2)
  have hfirst : -1022 < k + 1 := zpow_two_lt_iff.mp (lt_of_le_of_lt hlow hlt)
  have hlast : k < 1023 := zpow_two_lt_iff.mp (lt_of_le_of_lt hle hhigh)
  obtain ⟨e, rfl⟩ : ∃ e : Int, k = e + (52 : Nat) := ⟨k - 52, by omega⟩
  have hunit : (0 : ℚ) < 2 ^ e := by positivity
  rw [zpow_two_add] at hle
  rw [add_assoc, ← Nat.cast_one, ← Nat.cast_add, zpow_two_add] at hlt
  obtain ⟨n, hn⟩ := exists_roundsTo (le_of_lt (div_pos hpos hunit))
  have hbelow := (le_div_iff₀ hunit).mpr hle
  have habove := (div_lt_iff₀ hunit).mpr hlt
  have hbit : 2 ^ 52 ≤ n := by
    have hcast : ((2 ^ 52 : Nat) : ℚ) < (n + 1 : Nat) := by
      push_cast
      linarith [hn.high]
    rw [Nat.cast_lt] at hcast
    omega
  have hbits : n ≤ 2 ^ 53 := by
    have hcast : (n : ℚ) < (2 ^ 53 + 1 : Nat) := by
      push_cast
      linarith [hn.low]
    rw [Nat.cast_lt] at hcast
    omega
  rcases Nat.lt_or_eq_of_le hbits with hfits | rfl
  · use n, e
    refine ⟨⟨hfits, by omega, by omega, Or.inl hbit⟩, by omega, ?_⟩
    apply IsNearest.of_roundsTo hn
    intro hpower
    rw [hpower, Nat.cast_pow, Nat.cast_ofNat]
    apply hle
  · use 2 ^ 52, e + 1
    refine ⟨⟨by decide, by omega, by omega, Or.inl (Nat.le_refl _)⟩, by decide, ?_⟩
    apply IsNearest.of_carry hn hlt (by omega)

/-! ### Numbers with a sign and a size -/

/-- A number with a sign and a positive size. -/
def HasSize (x : Float) (negative : Bool) (v : ℚ) : Prop :=
  ∃ (m : Nat) (e : Int),
    Reading.ofFloat x = .finite negative m e ∧ 0 < m ∧ (m : ℚ) * 2 ^ e = v

/-- A number with a sign and a positive size to which a value goes. -/
def RoundsSize (x : Float) (negative : Bool) (v : ℚ) : Prop :=
  ∃ (m : Nat) (e : Int), Reading.ofFloat x = .finite negative m e ∧ 0 < m ∧ IsNearest v m e

/-- Two numbers with the sign and the size to which a value goes are the same. -/
theorem RoundsSize.eq {x y : Float} {negative : Bool} {v : ℚ} (hx : RoundsSize x negative v)
    (hy : RoundsSize y negative v) :
  x = y
  := by
  obtain ⟨m, e, hread, hm, hnearest⟩ := hx
  obtain ⟨m', e', hread', -, hnearest'⟩ := hy
  obtain ⟨rfl, rfl⟩ := hnearest.unique (Reading.isCanonical_of_ofFloat hread) hm hnearest'
    (Reading.isCanonical_of_ofFloat hread')
  apply Reading.eq_of_ofFloat hread hread'

/-- A number has the size to which its size goes. -/
theorem HasSize.rounds {x : Float} {negative : Bool} {v : ℚ} (h : HasSize x negative v) :
  RoundsSize x negative v
  := by
  obtain ⟨m, e, hread, hm, rfl⟩ := h
  use m, e, hread, hm
  apply IsNearest.self

/-- The numbers to which a value and the value times a power of two go differ by this power. -/
theorem RoundsSize.scale {x y : Float} {negative : Bool} {v : ℚ} {k : Nat} (hlow : 1 ≤ v)
    (hhigh : v * 2 ^ k < 2 ^ (1022 : Int)) (hx : RoundsSize x negative v)
    (hy : RoundsSize y negative (v * 2 ^ k)) :
  ∃ w : ℚ, 1 ≤ w ∧ w ≤ 2 * v ∧ HasSize x negative w ∧ HasSize y negative (w * 2 ^ k)
  := by
  obtain ⟨m, e, hread, hpos, hnearest⟩ := hx
  obtain ⟨m', e', hread', -, hnearest'⟩ := hy
  have hc := Reading.isCanonical_of_ofFloat hread
  have hunit : (0 : ℚ) < 2 ^ e := by positivity
  obtain ⟨hexponent, hm⟩ := hnearest.normal hc hlow
  have hbit : (2 : ℚ) ^ 52 ≤ m := by exact_mod_cast hm
  have hscale := hnearest.scale (by omega) k
  have hlarge : e + k + 51 < 1022 := by
    apply zpow_two_lt_iff.mp
    apply lt_of_le_of_lt (hscale.zpow_le hm) hhigh
  have hc' : IsCanonical m (e + k) := ⟨hc.lt, by omega, by omega, Or.inl hm⟩
  obtain ⟨rfl, rfl⟩ := hscale.unique hc' hpos hnearest' (Reading.isCanonical_of_ofFloat hread')
  use m * 2 ^ e
  refine ⟨?_, ?_, ⟨m, e, hread, hpos, rfl⟩, ⟨m, e + k, hread', hpos, ?_⟩⟩
  · calc
      (1 : ℚ) = 2 ^ (0 : Int) := (zpow_zero 2).symm
      _ ≤ 2 ^ (e + (52 : Nat)) := zpow_le_zpow_right₀ (by norm_num) (by omega)
      _ = 2 ^ 52 * 2 ^ e := zpow_two_add e 52
      _ ≤ m * 2 ^ e := by gcongr
  · calc
      (m : ℚ) * 2 ^ e ≤ 2 * (m - 1 / 2) * 2 ^ e := by
        gcongr
        linarith
      _ = 2 * ((m - 1 / 2) * 2 ^ e) := mul_assoc _ _ _
      _ ≤ 2 * v := by
        gcongr
        apply hnearest.le
  · rw [zpow_two_add]
    ring

/-- The exponent of a product with a mantissa of fifty-three bits is not above the one that rounding
aims at. -/
theorem le_targetExponent_mul {a b : Nat} (ha : 0 < a) (hb : 2 ^ 52 ≤ b) (e : Int) :
  e ≤ Format.binary64.targetExponent (totalExponent (a * b) e)
  := by
  have hlog := (Nat.le_log2 (Nat.ne_of_gt (Nat.mul_pos ha (by omega)))).mpr
    (Nat.le_trans hb (Nat.le_mul_of_pos_left b ha))
  rw [targetExponent_binary64]
  apply le_max_of_le_left
  omega

/-- The product with a positive number of fifty-three bits is the number nearest to it. -/
theorem ofFloat_mul {x y : Float} {negative : Bool} {a b m : Nat} {f g e : Int}
    (hx : Reading.ofFloat x = .finite negative a f) (ha : 0 < a)
    (hy : Reading.ofFloat y = .finite false b g) (hb : 2 ^ 52 ≤ b) (hc : IsCanonical m e)
    (hm : 0 < m) (h : IsNearest (a * 2 ^ f * (b * 2 ^ g)) m e) :
  Reading.ofFloat (x * y) = .finite negative m e
  := by
  have hbpos : 0 < b := by omega
  have hle := le_targetExponent_mul ha hb (f + g)
  have hpack := Reading.ofFloat_pack negative hc
  change Reading.ofFloat (.ofModel (Float.Model.pack
    (UnpackedFloat.mul Format.binary64 x.toModel.unpack y.toModel.unpack))) = _
  rw [Reading.unpack_toModel hx, Reading.unpack_toModel hy, unpackedOf, unpackedOf, dif_pos ha,
    dif_pos hbpos]
  rw [unpackedOf, dif_pos hm, ← mul_eq ha hbpos hc hm h hle] at hpack
  apply hpack

/-- The product with a positive number is the exact product, rounded. -/
theorem HasSize.mul {x y : Float} {negative : Bool} {v w : ℚ} (hx : HasSize x negative v)
    (hy : HasSize y false w) (hw : 1 ≤ w) (hlow : 2 ^ (-1022 : Int) ≤ v * w)
    (hhigh : v * w < 2 ^ (1023 : Int)) :
  RoundsSize (x * y) negative (v * w)
  := by
  obtain ⟨a, f, hread, ha, rfl⟩ := hx
  obtain ⟨b, g, hread', hb, rfl⟩ := hy
  obtain ⟨m, e, hc, hm, hnearest⟩ := exists_isNearest hlow hhigh
  obtain ⟨-, hbit⟩ := (IsNearest.self b g).normal (Reading.isCanonical_of_ofFloat hread') hw
  use m, e, ofFloat_mul hread ha hread' hbit hc hm hnearest, hm

/-- The quotient by a positive number is the exact quotient, rounded. -/
theorem HasSize.div {x y : Float} {negative : Bool} {v w : ℚ} (hx : HasSize x negative v)
    (hy : HasSize y false w) (hlow : 2 ^ (-1022 : Int) ≤ v / w)
    (hhigh : v / w < 2 ^ (1023 : Int)) :
  RoundsSize (x / y) negative (v / w)
  := by
  obtain ⟨a, f, hread, ha, rfl⟩ := hx
  obtain ⟨b, g, hread', hb, rfl⟩ := hy
  obtain ⟨m, e, hc, hm, hnearest⟩ := exists_isNearest hlow hhigh
  use m, e, ofFloat_div hread ha hread' hb hc hm hnearest, hm

/-! ### Whole numbers -/

/-- The opposite number has the other sign. -/
theorem HasSize.neg {x : Float} {negative : Bool} {v : ℚ} (h : HasSize x negative v) :
  HasSize (-x) (!negative) v
  := by
  obtain ⟨m, e, hread, hm, hv⟩ := h
  use m, e, Reading.ofFloat_neg hread, hm, hv

/-- A natural number of at most fifty-three bits is held exactly. -/
theorem hasSize_floatOfNat {n : Nat} (hpos : 0 < n) (hlt : n < 2 ^ 53) :
  HasSize (floatOfNat n) false n
  := ofFloat_toFloat hpos hlt

/-- An integer of at most fifty-three bits is held exactly. -/
theorem hasSize_floatOfInt {n : Int} (hn : n ≠ 0) (hlt : n.natAbs < 2 ^ 53) :
  HasSize (floatOfInt n) (decide (n < 0)) n.natAbs
  := by
  have hsize := hasSize_floatOfNat (Int.natAbs_pos.mpr hn) hlt
  rw [floatOfInt]
  by_cases hneg : n < 0
  · rw [if_pos hneg, decide_eq_true hneg]
    apply hsize.neg
  · rw [if_neg hneg, decide_eq_false hneg]
    apply hsize

/-- A natural number that a mantissa and an exponent make is their value. -/
theorem value_of_scaledNat? {m k : Nat} {e : Int} (h : scaledNat? m e = some k) :
  (m : ℚ) * 2 ^ e = k
  := by
  simp only [scaledNat?, Option.ite_none_right_eq_some, Option.some.injEq] at h
  obtain ⟨hmod, rfl⟩ := h
  have hpos : (scaledDenominator e : ℚ) ≠ 0 := by
    exact_mod_cast Nat.ne_of_gt (scaledDenominator_pos e)
  rw [← scaledNumerator_div_scaledDenominator, Nat.cast_div (Nat.dvd_of_mod_eq_zero hmod) hpos]

/-- A natural number that is the value of a mantissa and an exponent is made by them. -/
theorem scaledNat?_of_value {m n : Nat} {e : Int} (h : (m : ℚ) * 2 ^ e = n) :
  scaledNat? m e = some n
  := by
  have hpos := scaledDenominator_pos e
  have hne : (scaledDenominator e : ℚ) ≠ 0 := by exact_mod_cast Nat.ne_of_gt hpos
  have hnumerator : scaledNumerator m e = n * scaledDenominator e := by
    rw [← scaledNumerator_div_scaledDenominator, div_eq_iff hne] at h
    exact_mod_cast h
  rw [scaledNat?, hnumerator, Nat.mul_mod_left, Nat.mul_div_cancel n hpos]
  rfl

/-- What a number that is whole is read as. -/
theorem exists_of_whole? {x : Float} {n : Int} (h : whole? x = some n) :
  ∃ (negative : Bool) (m : Nat) (e : Int), Reading.ofFloat x = .finite negative m e ∧
    (m : ℚ) * 2 ^ e = n.natAbs ∧ (n ≠ 0 → negative = decide (n < 0))
  := by
  rw [whole?] at h
  split at h
  · rename_i negative m e hread
    split at h
    · rename_i k hscaled
      simp only [Option.ite_none_right_eq_some, Option.some.injEq] at h
      obtain ⟨-, rfl⟩ := h
      refine ⟨negative, m, e, hread, ?_, ?_⟩
      · rw [value_of_scaledNat? hscaled]
        cases negative <;> simp
      · intro hn
        cases negative <;> simp at hn ⊢
        omega
    · cases h
  · cases h

/-- A number that is whole, other than zero, is the number for the integer. -/
theorem eq_floatOfInt_of_whole? {x : Float} {n : Int} (h : whole? x = some n) (hn : n ≠ 0)
    (hlt : n.natAbs < 2 ^ 53) :
  x = floatOfInt n
  := by
  obtain ⟨negative, m, e, hread, hv, hsign⟩ := exists_of_whole? h
  have hm : 0 < m := by
    by_contra hzero
    rw [Nat.eq_zero_of_not_pos hzero, Nat.cast_zero, zero_mul] at hv
    apply hn
    apply Int.natAbs_eq_zero.mp
    exact_mod_cast hv.symm
  have hx : HasSize x (decide (n < 0)) n.natAbs := ⟨m, e, hsign hn ▸ hread, hm, hv⟩
  apply hx.rounds.eq (hasSize_floatOfInt hn hlt).rounds

/-- The order of mantissas and exponents is that of their values. -/
theorem IsCanonical.le_of_isLE {m m' : Nat} {e e' : Int} (hc : IsCanonical m e)
    (hc' : IsCanonical m' e') (h : ((compare e e').then (compare m m')).isLE = true) :
  (m : ℚ) * 2 ^ e ≤ m' * 2 ^ e'
  := by
  rcases Ordering.isLE_then_iff_or.mp h with hlt | ⟨heq, hle⟩
  · have hexponent := Int.compare_eq_lt.mp hlt
    have hlow := hc.low
    have hmantissa : (m : ℚ) ≤ 2 ^ 53 := by exact_mod_cast Nat.le_of_lt hc.lt
    have hbit : (2 ^ 52 : ℚ) ≤ m' := by exact_mod_cast hc'.normal.resolve_right (by omega)
    calc
      (m : ℚ) * 2 ^ e ≤ 2 ^ 53 * 2 ^ e := by gcongr
      _ = 2 ^ 52 * 2 ^ (e + (1 : Nat)) := by
        rw [zpow_two_add]
        ring
      _ ≤ m' * 2 ^ e' := by
        gcongr
        · norm_num
        · apply hexponent
  · have hmantissa := Nat.isLE_compare.mp hle
    rw [Int.compare_eq_eq.mp heq]
    gcongr

/-- The order of numbers that are not negative is that of their values. -/
theorem value_le_of_le {x y : Float} {m m' : Nat} {e e' : Int}
    (hx : Reading.ofFloat x = .finite false m e) (hy : Reading.ofFloat y = .finite false m' e')
    (h : x ≤ y) :
  (m : ℚ) * 2 ^ e ≤ m' * 2 ^ e'
  := by
  have hle : (unpackedOf false m e).le (unpackedOf false m' e') = true := by
    rw [← Reading.unpack_toModel hx, ← Reading.unpack_toModel hy]
    change decide (x.toModel ≤ y.toModel) = true at h
    apply of_decide_eq_true h
  rcases Nat.eq_zero_or_pos m with hzero | hm
  · rw [hzero, Nat.cast_zero, zero_mul]
    positivity
  · rw [unpackedOf, dif_pos hm] at hle
    rcases Nat.eq_zero_or_pos m' with rfl | hm'
    · cases hle
    · rw [unpackedOf, dif_pos hm'] at hle
      apply (Reading.isCanonical_of_ofFloat hx).le_of_isLE (Reading.isCanonical_of_ofFloat hy) hle

end Calculator
