import Calculator.Proofs.Operation.Integrality

/-!
# Shifts

Shifts are those of a word of sixty-four bits, without rounding (`BinaryOp.apply_shifts`): the bits
that are shifted out are lost, and those that are left are at most fifty-three significant ones.

A shift to the left that loses no bits is exact, and a shift to the right takes it back as long as
its result still counts as whole (`BinaryOp.apply_shiftRight_apply_shiftLeft`).  A result between
`2 ^ 63` and `2 ^ 64` is answered by the shift to the left, but refused by the shift to the right.

* `BinaryOp.apply_shiftLeft`, `BinaryOp.apply_shiftRight`: the values of shifts.
* `BinaryOp.hasValue_shiftLeft`, `BinaryOp.hasValue_shiftRight`: they are held exactly.
* `BinaryOp.apply_shift_of_le`: a shift by as many bits as a word has is refused.
-/

namespace Calculator

/-! ### Values -/

/-- A shift to the left multiplies by a power of two and keeps the bits that fit into a word. -/
theorem BinaryOp.apply_shiftLeft {x y : Float} {a n : Nat} (hx : HasValue x a)
    (hy : HasValue y n) (ha : a ≤ wholeLimit) (hn : n < wordBits) :
  BinaryOp.shiftLeft.apply x y = .ok (floatOfNat (a * 2 ^ n % 2 ^ wordBits))
  := by
  have hlimit : wordBits ≤ wholeLimit := by decide
  rw [apply, onNaturals_eq .shiftLeft hx hy ha (by omega), if_neg (by omega)]
  rfl

/-- A shift to the right divides by a power of two. -/
theorem BinaryOp.apply_shiftRight {x y : Float} {a n : Nat} (hx : HasValue x a)
    (hy : HasValue y n) (ha : a ≤ wholeLimit) (hn : n < wordBits) :
  BinaryOp.shiftRight.apply x y = .ok (floatOfNat (a / 2 ^ n))
  := by
  have hlimit : wordBits ≤ wholeLimit := by decide
  rw [apply, onNaturals_eq .shiftRight hx hy ha (by omega), if_neg (by omega)]
  rfl

/-- A shift by as many bits as a word has, or more, is refused. -/
theorem BinaryOp.apply_shift_of_le {x y : Float} {a n : Nat} (hx : HasValue x a)
    (hy : HasValue y n) (ha : a ≤ wholeLimit) (hle : n ≤ wholeLimit) (hn : wordBits ≤ n) :
  BinaryOp.shiftLeft.apply x y = .error (.shiftTooLarge n) ∧
    BinaryOp.shiftRight.apply x y = .error (.shiftTooLarge n)
  := by
  constructor
  · rw [apply, onNaturals_eq .shiftLeft hx hy ha hle, if_pos hn]
  · rw [apply, onNaturals_eq .shiftRight hx hy ha hle, if_pos hn]

/-- The natural value of a number has at most fifty-three significant bits. -/
theorem HasValue.fitsMantissa {x : Float} {a : Nat} (h : HasValue x a) :
  FitsMantissa a
  := (h.abs (Nat.cast_nonneg a)).fitsMantissa

/-- What is left of the value of a number after a shift to the left is held exactly. -/
theorem BinaryOp.hasValue_shiftLeft {x : Float} {a : Nat} (hx : HasValue x a) (n : Nat) :
  HasMagnitude (floatOfNat (a * 2 ^ n % 2 ^ wordBits)) false (a * 2 ^ n % 2 ^ wordBits : Nat)
  := by
  apply ((hx.fitsMantissa.mul_two_pow n).mod_two_pow wordBits).hasMagnitude
  apply Nat.mod_lt _ (Nat.two_pow_pos wordBits)

/-- What is left of the value of a number after a shift to the right is held exactly. -/
theorem BinaryOp.hasValue_shiftRight {x : Float} {a : Nat} (hx : HasValue x a)
    (ha : a ≤ wholeLimit) (n : Nat) :
  HasMagnitude (floatOfNat (a / 2 ^ n)) false (a / 2 ^ n : Nat)
  := by
  have hlimit : wholeLimit < 2 ^ 64 := by decide
  apply (hx.fitsMantissa.div_two_pow n).hasMagnitude
  have hle := Nat.div_le_self a (2 ^ n)
  omega

/-- Shifts of an accepted operand are those of a word: by fewer bits than a word has, the shift to
the left answers with the product by a power of two, cut off to a word, and the shift to the right
with the whole quotient, both without rounding; by more bits, both are refused. -/
theorem BinaryOp.apply_shifts {op : BinaryOp} {x y : Float} {a n : Nat}
    (hx : requireNatural op x = .ok a) (hy : requireNatural op y = .ok n) :
  HasValue x a ∧ HasValue y n ∧
  (n < 64 →
    (∃ z : Float, BinaryOp.shiftLeft.apply x y = .ok z ∧ HasValue z (a * 2 ^ n % 2 ^ 64 : Nat)) ∧
    ∃ z : Float, BinaryOp.shiftRight.apply x y = .ok z ∧ HasValue z (a / 2 ^ n : Nat)) ∧
  (64 ≤ n →
    BinaryOp.shiftLeft.apply x y = .error (.shiftTooLarge n) ∧
    BinaryOp.shiftRight.apply x y = .error (.shiftTooLarge n))
  := by
  obtain ⟨hx, ha⟩ := requireNatural_eq_ok_iff.mp hx
  obtain ⟨hy, hle⟩ := requireNatural_eq_ok_iff.mp hy
  refine ⟨hx, hy, ?_, ?_⟩
  · intro hn
    constructor
    · use floatOfNat (a * 2 ^ n % 2 ^ wordBits), apply_shiftLeft hx hy ha hn
      apply (hasValue_shiftLeft hx n).hasValue
    · use floatOfNat (a / 2 ^ n), apply_shiftRight hx hy ha hn
      apply (hasValue_shiftRight hx ha n).hasValue
  · intro hn
    apply apply_shift_of_le hx hy ha hle hn

/-- The highest of the fifty-three bits of `2 ^ 53 - 1` is shifted out, and the others stay. -/
theorem BinaryOp.apply_shifts_lost_bit :
  requireNatural .shiftLeft 9007199254740991.0 = .ok 9007199254740991 ∧
  requireNatural .shiftLeft 12.0 = .ok 12 ∧
  ∃ z : Float, BinaryOp.shiftLeft.apply 9007199254740991.0 12.0 = .ok z ∧
    HasValue z (2 ^ 64 - 2 ^ 12 : Nat)
  := by
  have hleft : requireNatural .shiftLeft 9007199254740991.0 = .ok 9007199254740991 := by
    decide +kernel
  have hright : requireNatural .shiftLeft 12.0 = .ok 12 := by decide +kernel
  obtain ⟨-, -, hsmall, -⟩ := apply_shifts hleft hright
  exact ⟨hleft, hright, (hsmall (by decide)).1⟩

/-! ### Shifts back -/

/-- A shift to the left that loses no bits multiplies by a power of two, without rounding. -/
theorem BinaryOp.apply_shiftLeft_of_lt {x y : Float} {a n : Nat} (hx : HasValue x a)
    (hy : HasValue y n) (ha : a ≤ wholeLimit) (hn : n < wordBits) (hlt : a * 2 ^ n < 2 ^ wordBits) :
  BinaryOp.shiftLeft.apply x y = .ok (floatOfNat (a * 2 ^ n)) ∧
    HasMagnitude (floatOfNat (a * 2 ^ n)) false (a * 2 ^ n : Nat)
  := by
  have hshift := apply_shiftLeft hx hy ha hn
  have hexact := hasValue_shiftLeft hx n
  rw [Nat.mod_eq_of_lt hlt] at hshift hexact
  use hshift

/-- A shift to the left that loses no bits is exact.  Shifting its result to the right again gives
the first operand back, up to the sign of a zero, if the result is at most `2 ^ 63`; otherwise the
result is refused as fractional. -/
theorem BinaryOp.apply_shiftRight_apply_shiftLeft {x y : Float} {a n : Nat} (hx : HasValue x a)
    (hy : HasValue y n) (ha : a ≤ 2 ^ 63) (hn : n ≤ 63) (hlt : a * 2 ^ n < 2 ^ 64) :
  ∃ z : Float, BinaryOp.shiftLeft.apply x y = .ok z ∧ HasValue z (a * 2 ^ n : Nat) ∧
    (a * 2 ^ n ≤ 2 ^ 63 → BinaryOp.shiftRight.apply z y = .ok x.abs ∧ (x.abs == x) = true) ∧
    (2 ^ 63 < a * 2 ^ n →
      BinaryOp.shiftRight.apply z y = .error (.fractionalOperand .shiftRight))
  := by
  have hbits : n < wordBits := Nat.lt_succ_of_le hn
  obtain ⟨hshift, hexact⟩ := apply_shiftLeft_of_lt hx hy ha hbits hlt
  refine ⟨_, hshift, hexact.hasValue, ?_, ?_⟩
  · intro hle
    have habs := hx.abs (Nat.cast_nonneg a)
    have hback : floatOfNat a = x.abs := by
      apply (habs.fitsMantissa.hasMagnitude _).eq habs
      omega
    rw [apply_shiftRight hexact.hasValue hy hle hbits, Nat.mul_div_cancel a (Nat.two_pow_pos n),
      hback]
    use rfl, hx.abs_beq (Nat.cast_nonneg a)
  · intro hlarge
    apply (apply_eq_fractionalOperand (by decide) hexact.hasValue hlarge y).1

/-- Three times `2 ^ 62` is the result of a shift to the left, but no operand of a shift to the
right. -/
theorem BinaryOp.apply_shiftRight_apply_shiftLeft_three :
  ∃ z : Float, BinaryOp.shiftLeft.apply 3.0 62.0 = .ok z ∧ HasValue z (3 * 2 ^ 62 : Nat) ∧
    BinaryOp.shiftRight.apply z 62.0 = .error (.fractionalOperand .shiftRight)
  := by
  have hthree : HasValue 3.0 (3 : Nat) := ⟨false, 3 * 2 ^ 51, -51, by decide +kernel, by norm_num⟩
  have hamount : HasValue 62.0 (62 : Nat) :=
    ⟨false, 31 * 2 ^ 48, -47, by decide +kernel, by norm_num⟩
  obtain ⟨z, hshift, hvalue, -, hlarge⟩ :=
    apply_shiftRight_apply_shiftLeft hthree hamount (by decide) (by decide) (by decide)
  exact ⟨z, hshift, hvalue, hlarge (by decide)⟩

end Calculator
