import Calculator.Number.Reading
import Mathlib

/-!
# Readings and bits

A finite number in double precision is read as a sign, a mantissa and an exponent, and
`Reading.ofFloat_eq_finite_iff` says which bits it has then.  So a number is determined by its
reading (`Reading.eq_of_ofFloat`), and the unpacked form in which the arithmetic of `Float` is
defined is the same reading in another shape (`Reading.unpack_toModel`, `Reading.ofFloat_pack`).
-/

namespace Calculator

open Float.Model Float.Model.UnpackedFloat

/-! ### The fields of a bit pattern -/

/-- The low fifty-two bits are the fraction. -/
theorem toNat_unpackMantissa (b : BitVec Format.binary64.numBits) :
  (unpackMantissa b).toNat = b.toNat % 2 ^ 52
  := by
  simp [unpackMantissa, BitVec.extractLsb_toNat]

/-- The eleven bits above the fraction are the exponent. -/
theorem toNat_unpackExponent (b : BitVec Format.binary64.numBits) :
  (unpackExponent b).toNat = b.toNat / 2 ^ 52 % 2 ^ 11
  := by
  simp [unpackExponent, BitVec.extractLsb_toNat, Nat.shiftRight_eq_div_pow]

/-- The highest bit is the sign. -/
theorem toNat_unpackSign (b : BitVec Format.binary64.numBits) :
  (unpackSign b).toNat = b.toNat / 2 ^ 63
  := by
  have hlt : b.toNat < 2 ^ 64 := b.isLt
  simp only [unpackSign, BitVec.extractLsb_toNat, BitVec.toNat_cast, Nat.shiftRight_eq_div_pow]
  omega

/-- The value of the bits that are made of a sign, an exponent and a fraction. -/
theorem toNat_packComponents (s : Sign) (e : BitVec 11) (m : BitVec 52) :
  (packComponents Format.binary64 s e m).toNat
    = s.toBitVec.toNat * 2 ^ 63 + e.toNat * 2 ^ 52 + m.toNat
  := by
  have happend := BitVec.toNat_append (s.toBitVec ++ e) m
  rw [BitVec.toNat_append s.toBitVec e, ← Nat.shiftLeft_add_eq_or_of_lt m.isLt,
    ← Nat.shiftLeft_add_eq_or_of_lt e.isLt] at happend
  apply happend.trans
  simp only [Nat.shiftLeft_eq]
  omega

/-- A fraction with the bit that the packed form leaves out. -/
theorem toNat_implicit_append (m : BitVec 52) :
  (1#1 ++ m).toNat = 2 ^ 52 + m.toNat
  := by
  rw [BitVec.toNat_append, ← Nat.shiftLeft_add_eq_or_of_lt m.isLt]
  rfl

/-! ### Canonical readings -/

/-- The mantissas and exponents of finite numbers. -/
structure IsCanonical (mantissa : Nat) (exponent : Int) : Prop where
  lt : mantissa < 2 ^ 53
  low : -1074 ≤ exponent
  high : exponent ≤ 971
  normal : 2 ^ 52 ≤ mantissa ∨ exponent = -1074

/-- The bits of a finite number. -/
def finiteBits (negative : Bool) (mantissa : Nat) (exponent : Int) : Nat :=
  negative.toNat * 2 ^ 63 + (exponent + 1074).toNat * 2 ^ 52 + mantissa

/-- The sign of the unpacked form. -/
def signOf (negative : Bool) : Sign :=
  if negative then .negative else .positive

/-- The unpacked form of a finite number. -/
def unpackedOf (negative : Bool) (mantissa : Nat) (exponent : Int) : UnpackedFloat :=
  if h : 0 < mantissa then .finite (signOf negative) mantissa exponent h
  else .zero (signOf negative)

/-- The sign bit of the unpacked form. -/
theorem toNat_toBitVec_signOf (negative : Bool) :
  (signOf negative).toBitVec.toNat = negative.toNat
  := by
  cases negative <;> rfl

/-- Packing a finite number gives its bits. -/
theorem toNat_pack {negative : Bool} {m : Nat} {e : Int} (h : IsCanonical m e) :
  (UnpackedFloat.pack Format.binary64 (unpackedOf negative m e)).toNat = finiteBits negative m e
  := by
  obtain ⟨hlt, hlow, hhigh, hnormal⟩ := h
  unfold unpackedOf finiteBits
  split
  · rename_i hpos
    have hfits : ¬2 ^ 11 ≤ (e + (1023 : Nat) + (52 : Nat)).toNat + 1 := by omega
    have hfraction : (BitVec.ofNat 52 m).toNat = m % 2 ^ 52 := BitVec.toNat_ofNat m 52
    change BitVec.toNat (if 2 ^ 11 ≤ (e + (1023 : Nat) + (52 : Nat)).toNat + 1 then _
      else if m.log2 + 1 = 53 then
        packComponents Format.binary64 (signOf negative)
          (BitVec.ofNat 11 (e + (1023 : Nat) + (52 : Nat)).toNat) (BitVec.ofNat 52 m)
      else packComponents Format.binary64 (signOf negative) 0#11 (BitVec.ofNat 52 m)) = _
    rw [if_neg hfits]
    by_cases hbit : 2 ^ 52 ≤ m
    · have hlog : m.log2 + 1 = 53 := by
        rw [(Nat.log2_eq_iff (Nat.ne_of_gt hpos)).mpr ⟨hbit, hlt⟩]
      rw [if_pos hlog, toNat_packComponents, hfraction, BitVec.toNat_ofNat, toNat_toBitVec_signOf]
      omega
    · have hlog : ¬m.log2 + 1 = 53 := by
        have hlt := (Nat.log2_lt (Nat.ne_of_gt hpos)).mpr (Nat.lt_of_not_le hbit)
        omega
      rw [if_neg hlog, toNat_packComponents, hfraction, toNat_toBitVec_signOf,
        hnormal.resolve_left hbit, Nat.mod_eq_of_lt (Nat.lt_of_not_le hbit)]
      rfl
  · have hm : m = 0 := by omega
    have he : e = -1074 := by omega
    subst hm he
    cases negative <;> rfl

/-- A bit is the sign that it was packed from. -/
theorem ofBitVec_of_toNat {b : BitVec 1} {negative : Bool} (h : b.toNat = negative.toNat) :
  Sign.ofBitVec b = signOf negative
  := by
  have hb : b = (signOf negative).toBitVec := by
    apply BitVec.eq_of_toNat_eq
    rw [h, toNat_toBitVec_signOf]
  rw [hb, Sign.ofBitVec_toBitVec]

/-- The fields of the bits of a finite number. -/
structure HasFields (b : BitVec Format.binary64.numBits) (negative : Bool) (mantissa : Nat)
    (exponent : Int) : Prop where
  fraction : (unpackMantissa b).toNat = mantissa % 2 ^ 52
  biased : (unpackExponent b).toNat = (exponent + 1074).toNat + mantissa / 2 ^ 52
  sign : Sign.ofBitVec (unpackSign b) = signOf negative

/-- The bits of a finite number have its fields. -/
theorem HasFields.of_toNat {b : BitVec Format.binary64.numBits} {negative : Bool} {m : Nat}
    {e : Int} (h : IsCanonical m e) (hb : b.toNat = finiteBits negative m e) :
  HasFields b negative m e
  := by
  obtain ⟨hlt, hlow, hhigh, hnormal⟩ := h
  constructor
  · rw [toNat_unpackMantissa, hb, finiteBits]
    omega
  · rw [toNat_unpackExponent, hb, finiteBits]
    cases negative <;> simp only [Bool.toNat_true, Bool.toNat_false] <;> omega
  · apply ofBitVec_of_toNat
    rw [toNat_unpackSign, hb, finiteBits]
    omega

/-- The exponent field of a finite number is not the one of infinities. -/
theorem HasFields.unpackExponent_ne {b : BitVec Format.binary64.numBits} {negative : Bool}
    {m : Nat} {e : Int} (hb : HasFields b negative m e) (h : IsCanonical m e) :
  unpackExponent b ≠ -1#11
  := by
  obtain ⟨hlt, hlow, hhigh, hnormal⟩ := h
  have hbiased := hb.biased
  intro heq
  have htop : (unpackExponent b).toNat = 2047 := by rw [heq]; rfl
  omega

/-- A mantissa with fifty-three bits is unpacked with the bit that its fraction leaves out. -/
theorem HasFields.unpack_normal {b : BitVec Format.binary64.numBits} {negative : Bool} {m : Nat}
    {e : Int} (hb : HasFields b negative m e) (h : IsCanonical m e) (hbit : 2 ^ 52 ≤ m) :
  UnpackedFloat.unpack Format.binary64 b = unpackedOf negative m e
  := by
  have hfinite := hb.unpackExponent_ne h
  obtain ⟨hlt, hlow, hhigh, hnormal⟩ := h
  obtain ⟨hfraction, hbiased, hsign⟩ := hb
  have hnonzero : unpackExponent b ≠ 0#11 := by
    intro heq
    have hzero : (unpackExponent b).toNat = 0 := by rw [heq]; rfl
    omega
  have hmantissa : (1#1 ++ unpackMantissa b).toNat = m := by
    rw [toNat_implicit_append, hfraction]
    omega
  have hexponent : ((unpackExponent b).toNat : Int) - ((1023 : Nat) + (52 : Nat) : Int) = e := by
    rw [hbiased]
    omega
  rw [unpackedOf, dif_pos (by omega)]
  simp only [UnpackedFloat.unpack]
  rw [if_neg hfinite, if_neg hnonzero]
  congr 1

/-- A mantissa with fewer bits is unpacked with the least exponent. -/
theorem HasFields.unpack_subnormal {b : BitVec Format.binary64.numBits} {negative : Bool}
    {m : Nat} {e : Int} (hb : HasFields b negative m e) (h : IsCanonical m e)
    (hbit : m < 2 ^ 52) :
  UnpackedFloat.unpack Format.binary64 b = unpackedOf negative m e
  := by
  have hfinite := hb.unpackExponent_ne h
  have hsubnormal := h.normal.resolve_left (Nat.not_le_of_lt hbit)
  obtain ⟨hfraction, hbiased, hsign⟩ := hb
  have hzero : unpackExponent b = 0#11 := by
    apply BitVec.eq_of_toNat_eq
    rw [hbiased, BitVec.toNat_zero]
    omega
  have hmantissa : (unpackMantissa b).toNat = m := by
    rw [hfraction, Nat.mod_eq_of_lt hbit]
  simp only [UnpackedFloat.unpack]
  rw [if_neg hfinite, if_pos hzero, unpackedOf]
  by_cases hpos : 0 < m
  · have hne : unpackMantissa b ≠ 0#52 := by
      intro heq
      rw [heq, BitVec.toNat_zero] at hmantissa
      omega
    rw [dif_neg hne, dif_pos hpos]
    congr 1
    rw [hzero, hsubnormal]
    rfl
  · have heq : unpackMantissa b = 0#52 := by
      apply BitVec.eq_of_toNat_eq
      rw [hmantissa, BitVec.toNat_zero]
      omega
    rw [dif_pos heq, dif_neg hpos, hsign]

/-- Unpacking the bits of a finite number gives it back. -/
theorem unpack_of_toNat {b : BitVec Format.binary64.numBits} {negative : Bool} {m : Nat} {e : Int}
    (h : IsCanonical m e) (hb : b.toNat = finiteBits negative m e) :
  UnpackedFloat.unpack Format.binary64 b = unpackedOf negative m e
  := by
  have hfields := HasFields.of_toNat h hb
  rcases Nat.lt_or_ge m (2 ^ 52) with hbit | hbit
  · apply hfields.unpack_subnormal h hbit
  · apply hfields.unpack_normal h hbit

namespace Reading

/-- Which bits a number has that is read as finite. -/
theorem ofFloat_eq_finite_iff {x : Float} {negative : Bool} {m : Nat} {e : Int} :
  ofFloat x = .finite negative m e ↔
    IsCanonical m e ∧ x.toBits.toNat = finiteBits negative m e
  := by
  have hbits : x.toBits.toNat < 2 ^ 64 := x.toBits.toNat_lt
  simp only [ofFloat, finiteBits, Nat.pow_eq]
  generalize x.toBits.toNat = bits at hbits
  have hsign : (decide (2 ^ 63 ≤ bits)).toNat = bits / 2 ^ 63 := by
    by_cases h : 2 ^ 63 ≤ bits
    · rw [decide_eq_true h, Bool.toNat_true]
      omega
    · rw [decide_eq_false h, Bool.toNat_false]
      omega
  constructor
  · intro h
    split at h
    · split at h <;> cases h
    · split at h
      · cases h
        rw [hsign]
        constructor
        · constructor <;> omega
        · omega
      · cases h
        rw [hsign]
        constructor
        · constructor <;> omega
        · omega
  · rintro ⟨⟨hlt, hlow, hhigh, hnormal⟩, hb⟩
    have hnegative : decide (2 ^ 63 ≤ bits) = negative := by
      cases negative <;> simp only [Bool.toNat_true, Bool.toNat_false] at hb
      · apply decide_eq_false
        omega
      · apply decide_eq_true
        omega
    have hfraction : bits % 2 ^ 52 = m % 2 ^ 52 := by omega
    have hbiased : bits / 2 ^ 52 % 2 ^ 11 = (e + 1074).toNat + m / 2 ^ 52 := by
      cases negative <;> simp only [Bool.toNat_true, Bool.toNat_false] at hb <;> omega
    rw [hnegative, hfraction, hbiased, if_neg (by omega)]
    by_cases hbit : 2 ^ 52 ≤ m
    · rw [if_neg (by omega)]
      congr 1 <;> omega
    · rw [if_pos (by omega)]
      congr 1 <;> omega

/-- The mantissa and the exponent of a finite number are canonical. -/
theorem isCanonical_of_ofFloat {x : Float} {negative : Bool} {m : Nat} {e : Int}
    (h : ofFloat x = .finite negative m e) :
  IsCanonical m e
  := by
  apply (ofFloat_eq_finite_iff.mp h).1

/-- A finite number is determined by its reading. -/
theorem eq_of_ofFloat {x y : Float} {negative : Bool} {m : Nat} {e : Int}
    (hx : ofFloat x = .finite negative m e) (hy : ofFloat y = .finite negative m e) :
  x = y
  := by
  have hbits : x.toBits = y.toBits := by
    apply UInt64.toNat_inj.mp
    rw [(ofFloat_eq_finite_iff.mp hx).2, (ofFloat_eq_finite_iff.mp hy).2]
  obtain ⟨⟨bits, valid⟩⟩ := x
  obtain ⟨⟨bits', valid'⟩⟩ := y
  cases hbits
  rfl

/-- The unpacked form of a finite number is its reading. -/
theorem unpack_toModel {x : Float} {negative : Bool} {m : Nat} {e : Int}
    (h : ofFloat x = .finite negative m e) :
  x.toModel.unpack = unpackedOf negative m e
  := by
  obtain ⟨hcanonical, hbits⟩ := ofFloat_eq_finite_iff.mp h
  apply unpack_of_toNat hcanonical hbits

/-- What is packed from a canonical reading has this reading. -/
theorem ofFloat_pack (negative : Bool) {m : Nat} {e : Int} (h : IsCanonical m e) :
  ofFloat (.ofModel (Float.Model.pack (unpackedOf negative m e))) = .finite negative m e
  := by
  apply ofFloat_eq_finite_iff.mpr
  use h
  apply toNat_pack h

/-- A number that is finite has a finite reading. -/
theorem exists_finite_of_isFinite {x : Float} (h : x.isFinite = true) :
  ∃ (negative : Bool) (m : Nat) (e : Int), ofFloat x = .finite negative m e
  := by
  by_cases htop : x.toBits.toNat / 2 ^ 52 % 2 ^ 11 = 2047
  · let bits : BitVec Format.binary64.numBits := x.toModel.toBits.toBitVec
    have hexponent : unpackExponent bits = -1#11 := by
      apply BitVec.eq_of_toNat_eq
      apply (toNat_unpackExponent bits).trans htop
    have hinfinite : (UnpackedFloat.unpack Format.binary64 bits).isFinite = false := by
      simp only [UnpackedFloat.unpack]
      rw [if_pos hexponent]
      split <;> rfl
    cases hinfinite.symm.trans h
  · simp only [ofFloat, Nat.pow_eq, htop, if_false]
    split
    · refine ⟨_, _, _, rfl⟩
    · refine ⟨_, _, _, rfl⟩

/-- The negative of a finite number has the other sign. -/
theorem ofFloat_neg {x : Float} {negative : Bool} {m : Nat} {e : Int}
    (h : ofFloat x = .finite negative m e) :
  ofFloat (-x) = .finite (!negative) m e
  := by
  have hneg : (unpackedOf negative m e).neg = unpackedOf (!negative) m e := by
    unfold unpackedOf
    split <;> cases negative <;> rfl
  have hpack := ofFloat_pack (!negative) (isCanonical_of_ofFloat h)
  rw [← hneg, ← unpack_toModel h] at hpack
  apply hpack

/-- The size of a finite number has the positive sign. -/
theorem ofFloat_abs {x : Float} {negative : Bool} {m : Nat} {e : Int}
    (h : ofFloat x = .finite negative m e) :
  ofFloat x.abs = .finite false m e
  := by
  have habs : (unpackedOf negative m e).abs = unpackedOf false m e := by
    unfold unpackedOf
    split <;> rfl
  have hpack := ofFloat_pack false (isCanonical_of_ofFloat h)
  rw [← habs, ← unpack_toModel h] at hpack
  apply hpack

end Reading

end Calculator
