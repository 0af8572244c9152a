import Calculator.Operation.Apply
import Calculator.Proofs.Number.Value

/-!
# Integrality

A number counts as whole by its value, up to `2 ^ 63` in size: then it is even or odd, and no
operation on natural numbers refuses it as fractional.  A number beyond counts as fractional,
although its value is whole: it is neither even nor odd, and all these operations refuse it
(`integrality_of_isFinite`).

* `requireNatural_eq_ok_iff`, `requireNatural_of_lt`: which operands pass the check of operands, and
  which are refused as fractional.
* `onNaturals_eq`: an operation on natural numbers at operands that pass.
* `BinaryOp.apply_ne_fractionalOperand`, `BinaryOp.apply_eq_fractionalOperand`: the two cases for
  all operations on two natural numbers.
* `UnaryOp.apply_factorial_of_le`, `UnaryOp.apply_factors_of_le`, `UnaryOp.apply_of_lt`: the same for
  those on one.
* `UnaryOp.apply_floor_eq_self_iff`: the numbers that are their own floor have whole values.
-/

namespace Calculator

/-! ### Operands -/

/-- An operand that is a natural number passes the check of operands. -/
theorem requireNatural_of_hasValue (op : BinaryOp) {x : Float} {n : Nat} (h : HasValue x n)
    (hn : n ≤ wholeLimit) :
  requireNatural op x = .ok n
  := by
  have hwhole : whole? x = some (n : Int) := whole?_eq_some_iff.mpr ⟨h, hn⟩
  rw [requireNatural, if_neg (h.not_lt_zero (Nat.cast_nonneg n)), hwhole]
  rfl

/-- The check of operands lets exactly the natural numbers of limited size pass. -/
theorem requireNatural_eq_ok_iff {op : BinaryOp} {x : Float} {n : Nat} :
  requireNatural op x = .ok n ↔ HasValue x n ∧ n ≤ wholeLimit
  := by
  constructor
  · intro h
    rw [requireNatural] at h
    split at h
    · cases h
    · rename_i hneg
      split at h
      · rename_i k hwhole
        cases h
        obtain ⟨hvalue, hle⟩ := whole?_eq_some_iff.mp hwhole
        have hnonneg : 0 ≤ k := by
          by_contra hlt
          apply hneg (hvalue.lt_zero _)
          exact_mod_cast lt_of_not_ge hlt
        rw [← Int.natAbs_of_nonneg hnonneg] at hvalue ⊢
        use hvalue
        apply hle
      · cases h
  · rintro ⟨h, hn⟩
    apply requireNatural_of_hasValue op h hn

/-- A natural number beyond the limit does not count as whole. -/
theorem whole?_eq_none_of_lt {x : Float} {n : Nat} (h : HasValue x n) (hn : wholeLimit < n) :
  whole? x = none
  := by
  apply (whole?_eq_none_iff h).mpr
  rintro ⟨-, hle⟩
  rw [Nat.abs_cast, Nat.cast_le] at hle
  omega

/-- An operand that is a natural number beyond the limit is refused as fractional. -/
theorem requireNatural_of_lt (op : BinaryOp) {x : Float} {n : Nat} (h : HasValue x n)
    (hn : wholeLimit < n) :
  requireNatural op x = .error (.fractionalOperand op)
  := by
  rw [requireNatural, if_neg (h.not_lt_zero (Nat.cast_nonneg n)), whole?_eq_none_of_lt h hn]

/-- An operation on natural numbers has its value at two natural numbers of limited size. -/
theorem onNaturals_eq (op : BinaryOp) {x y : Float} {a b : Nat} (hx : HasValue x a)
    (hy : HasValue y b) (ha : a ≤ wholeLimit) (hb : b ≤ wholeLimit)
    (value : Nat → Nat → Except DomainError Float) :
  onNaturals op x y value = value a b
  := by
  rw [onNaturals, requireNatural_of_hasValue op hx ha, requireNatural_of_hasValue op hy hb]
  rfl

/-- The operations on natural numbers. -/
def BinaryOp.onNaturalNumbers : List BinaryOp :=
  [.gcd, .lcm, .shiftLeft, .shiftRight]

/-- Each of them is applied to two natural numbers, at which it may have no value, but not because an
operand is fractional. -/
theorem BinaryOp.exists_apply_eq_onNaturals {op : BinaryOp} (hop : op ∈ onNaturalNumbers) :
  ∃ value : Nat → Nat → Except DomainError Float,
    (∀ a b : Nat, value a b ≠ .error (.fractionalOperand op)) ∧
    ∀ x y : Float, op.apply x y = onNaturals op x y value
  := by
  simp only [onNaturalNumbers, List.mem_cons, List.not_mem_nil, or_false] at hop
  rcases hop with rfl | rfl | rfl | rfl
  all_goals
    refine ⟨_, ?_, fun x y => rfl⟩
    intro a b
  · simp
  · simp
  · split <;> simp
  · split <;> simp

/-- Operands that are natural numbers of limited size are not refused as fractional. -/
theorem BinaryOp.apply_ne_fractionalOperand {op : BinaryOp} (hop : op ∈ onNaturalNumbers)
    {x y : Float} {a b : Nat} (hx : HasValue x a) (hy : HasValue y b) (ha : a ≤ wholeLimit)
    (hb : b ≤ wholeLimit) :
  op.apply x y ≠ .error (.fractionalOperand op)
  := by
  obtain ⟨value, hvalue, happly⟩ := exists_apply_eq_onNaturals hop
  rw [happly, onNaturals_eq op hx hy ha hb]
  apply hvalue

/-- An operand that is a natural number beyond the limit is refused as fractional, also a right one
after a left one that passes. -/
theorem BinaryOp.apply_eq_fractionalOperand {op : BinaryOp} (hop : op ∈ onNaturalNumbers)
    {x : Float} {a : Nat} (hx : HasValue x a) (ha : wholeLimit < a) (y : Float) :
  op.apply x y = .error (.fractionalOperand op) ∧
  ∀ b : Nat, HasValue y b → b ≤ wholeLimit → op.apply y x = .error (.fractionalOperand op)
  := by
  obtain ⟨value, -, happly⟩ := exists_apply_eq_onNaturals hop
  have hrefused := requireNatural_of_lt op hx ha
  constructor
  · rw [happly, onNaturals, hrefused]
    rfl
  · intro b hy hb
    rw [happly, onNaturals, requireNatural_of_hasValue op hy hb, hrefused]
    rfl

section

variable (mode : AngleMode) {x : Float} {n : Nat}

/-- The factorial of a natural number of limited size is computed from the number. -/
theorem UnaryOp.apply_factorial_of_le (h : HasValue x n) (hn : n ≤ wholeLimit) :
  UnaryOp.factorial.apply mode x = .ok (Calculator.factorial n)
  := by
  have hwhole : whole? x = some (n : Int) := whole?_eq_some_iff.mpr ⟨h, hn⟩
  rw [apply, hwhole]
  simp only
  rw [if_neg (by omega), Int.toNat_natCast]

/-- The divisors of a positive natural number of limited size are counted. -/
theorem UnaryOp.apply_factors_of_le (h : HasValue x n) (hpos : 1 ≤ n) (hn : n ≤ wholeLimit) :
  UnaryOp.factors.apply mode x = .ok (floatOfNat (countDivisors n))
  := by
  have hwhole : whole? x = some (n : Int) := whole?_eq_some_iff.mpr ⟨h, hn⟩
  rw [apply, hwhole]
  simp only
  rw [if_neg (by omega), Int.toNat_natCast]

/-- The operations on one natural number refuse those beyond the limit. -/
theorem UnaryOp.apply_of_lt (h : HasValue x n) (hn : wholeLimit < n) :
  UnaryOp.factorial.apply mode x = .error .factorialOfNonNatural ∧
  UnaryOp.factors.apply mode x = .error .factorsOfNonPositive
  := by
  rw [apply, apply, whole?_eq_none_of_lt h hn]
  exact ⟨rfl, rfl⟩

end

/-! ### Parity -/

/-- The floor of a number is the number itself exactly if its value is whole. -/
theorem UnaryOp.apply_floor_eq_self_iff (mode : AngleMode) {x : Float} {v : ℚ} (h : HasValue x v) :
  UnaryOp.floor.apply mode x = .ok x ↔ ∃ n : Int, v = n
  := by
  obtain ⟨negative, hx⟩ := h
  have hnonneg := hx.nonneg
  rw [apply, Except.ok.injEq, Rounding.down.whole_eq_self_iff hx]
  constructor
  · rintro ⟨n, hn⟩
    cases negative
    · use n
      apply hn
    · use -n
      rw [Int.cast_neg, Int.cast_natCast, ← hn, if_pos rfl, neg_neg]
  · rintro ⟨n, rfl⟩
    use n.natAbs
    rw [Nat.cast_natAbs, Int.cast_abs]
    cases negative
    · apply (abs_of_nonneg hnonneg).symm
    · rw [if_pos rfl] at hnonneg ⊢
      rw [abs_of_nonpos (by linarith)]

/-- The tests for even and for odd numbers: one of them answers one if the value is whole and not
too large, the first if it is even. -/
theorem UnaryOp.exists_apply_isEven_apply_isOdd (mode : AngleMode) {x : Float} {v : ℚ}
    (h : HasValue x v) :
  ∃ even odd : Float,
    UnaryOp.isEven.apply mode x = .ok even ∧ UnaryOp.isOdd.apply mode x = .ok odd ∧
    ((∃ n : Int, v = n) ∧ |v| ≤ 2 ^ 63 ↔ even + odd = 1.0) ∧
    (even = 1.0 ↔ (∃ n : Int, v = 2 * n) ∧ |v| ≤ 2 ^ 63)
  := by
  have hne : (0.0 : Float) ≠ 1.0 := by decide +kernel
  have hsum : (0.0 + 0.0 : Float) ≠ 1.0 := by decide +kernel
  have hlimit : (2 ^ 63 : ℚ) = wholeLimit := by norm_num [wholeLimit]
  rw [hlimit, apply, apply]
  cases hwhole : whole? x with
  | none =>
    have hlarge := (whole?_eq_none_iff h).mp hwhole
    refine ⟨0.0, 0.0, rfl, rfl, ⟨fun hv => absurd hv hlarge, fun heq => absurd heq hsum⟩,
      ⟨fun heq => absurd heq hne, ?_⟩⟩
    rintro ⟨⟨n, hn⟩, hle⟩
    apply absurd _ hlarge
    use ⟨2 * n, by rw [hn, Int.cast_mul, Int.cast_ofNat]⟩
  | some n =>
    obtain ⟨hvalue, hle⟩ := whole?_eq_some_iff.mp hwhole
    obtain rfl := h.unique hvalue
    have hle : |(n : ℚ)| ≤ wholeLimit := by
      rw [← Int.cast_abs, ← Nat.cast_natAbs]
      exact_mod_cast hle
    refine ⟨_, _, rfl, rfl, ?_⟩
    rcases Int.emod_two_eq_zero_or_one n with hmod | hmod
    · have hone : (1.0 + 0.0 : Float) = 1.0 := by decide +kernel
      rw [hmod]
      refine ⟨⟨fun _ => hone, fun _ => ⟨⟨n, rfl⟩, hle⟩⟩, ⟨fun _ => ⟨⟨n / 2, ?_⟩, hle⟩, fun _ => rfl⟩⟩
      exact_mod_cast (Int.mul_ediv_cancel' (Int.dvd_of_emod_eq_zero hmod)).symm
    · have hone : (0.0 + 1.0 : Float) = 1.0 := by decide +kernel
      rw [hmod]
      refine ⟨⟨fun _ => hone, fun _ => ⟨⟨n, rfl⟩, hle⟩⟩, ⟨fun heq => absurd heq hne, ?_⟩⟩
      rintro ⟨⟨k, hk⟩, -⟩
      have heven : n = 2 * k := by exact_mod_cast hk
      omega

/-! ### Integrality -/

/-- A finite number is judged by its value exactly as long as this is at most `2 ^ 63` in size: then
a number that is its own floor is even or odd, and no operation on natural numbers refuses one of
them as fractional.  A natural number beyond is refused by all of them. -/
theorem integrality_of_isFinite {x : Float} (hfinite : x.isFinite = true) (mode : AngleMode) :
  ∃ v : ℚ, HasValue x v ∧
    (∃ even odd : Float,
      UnaryOp.isEven.apply mode x = .ok even ∧ UnaryOp.isOdd.apply mode x = .ok odd ∧
      (UnaryOp.floor.apply mode x = .ok x ∧ |v| ≤ 2 ^ 63 ↔ even + odd = 1.0) ∧
      (even = 1.0 ↔ (∃ n : Int, v = 2 * n) ∧ |v| ≤ 2 ^ 63)) ∧
    ∀ n : Nat, v = n →
      (n ≤ 2 ^ 63 →
        (∃ y : Float, UnaryOp.factorial.apply mode x = .ok y) ∧
        (1 ≤ n → ∃ y : Float, UnaryOp.factors.apply mode x = .ok y) ∧
        ∀ op ∈ BinaryOp.onNaturalNumbers, ∀ (y : Float) (k : Nat), HasValue y k → k ≤ 2 ^ 63 →
          op.apply x y ≠ .error (.fractionalOperand op) ∧
          op.apply y x ≠ .error (.fractionalOperand op)) ∧
      (2 ^ 63 < n →
        UnaryOp.factorial.apply mode x = .error .factorialOfNonNatural ∧
        UnaryOp.factors.apply mode x = .error .factorsOfNonPositive ∧
        ∀ op ∈ BinaryOp.onNaturalNumbers, ∀ (y : Float) (k : Nat), HasValue y k → k ≤ 2 ^ 63 →
          op.apply x y = .error (.fractionalOperand op) ∧
          op.apply y x = .error (.fractionalOperand op))
  := by
  obtain ⟨v, h⟩ := exists_hasValue hfinite
  refine ⟨v, h, ?_, ?_⟩
  · simp only [UnaryOp.apply_floor_eq_self_iff mode h]
    apply UnaryOp.exists_apply_isEven_apply_isOdd mode h
  · rintro n rfl
    constructor
    · intro hn
      refine ⟨⟨_, UnaryOp.apply_factorial_of_le mode h hn⟩, ?_, ?_⟩
      · intro hpos
        use floatOfNat (countDivisors n)
        apply UnaryOp.apply_factors_of_le mode h hpos hn
      · intro op hop y k hy hk
        use BinaryOp.apply_ne_fractionalOperand hop h hy hn hk
        apply BinaryOp.apply_ne_fractionalOperand hop hy h hk hn
    · intro hn
      obtain ⟨hfactorial, hfactors⟩ := UnaryOp.apply_of_lt mode h hn
      refine ⟨hfactorial, hfactors, ?_⟩
      intro op hop y k hy hk
      obtain ⟨hleft, hright⟩ := BinaryOp.apply_eq_fractionalOperand hop h hn y
      exact ⟨hleft, hright k hy hk⟩

/-- The largest number that is judged by its value is even, and not odd. -/
theorem integrality_of_isFinite_largest :
  (9223372036854775808.0 : Float).isFinite = true ∧
  ∃ even odd : Float,
    UnaryOp.isEven.apply .radians 9223372036854775808.0 = .ok even ∧
    UnaryOp.isOdd.apply .radians 9223372036854775808.0 = .ok odd ∧ even + odd = 1.0 ∧ even = 1.0
  := by
  have hfinite : (9223372036854775808.0 : Float).isFinite = true := by decide +kernel
  have hvalue : HasValue 9223372036854775808.0 (2 * (2 ^ 62 : Int)) := by
    refine ⟨false, 2 ^ 52, 11, by decide +kernel, ?_⟩
    norm_num
  obtain ⟨v, h, ⟨even, odd, heven, hodd, hsum, hparity⟩, -⟩ :=
    integrality_of_isFinite hfinite .radians
  obtain rfl := h.unique hvalue
  have hone := hparity.mpr ⟨⟨2 ^ 62, rfl⟩, by norm_num⟩
  refine ⟨hfinite, even, odd, heven, hodd, hsum.mp ⟨?_, by norm_num⟩, hone⟩
  apply (UnaryOp.apply_floor_eq_self_iff .radians hvalue).mpr
  use 2 * 2 ^ 62
  norm_num

/-- The even number `2 ^ 64` is neither even nor odd, and is refused as fractional. -/
theorem two_pow_sixtyFour_not_integral :
  HasValue 18446744073709551616.0 (2 * (2 ^ 63 : Int)) ∧
  UnaryOp.floor.apply .radians 18446744073709551616.0 = .ok 18446744073709551616.0 ∧
  UnaryOp.isEven.apply .radians 18446744073709551616.0 = .ok 0.0 ∧
  UnaryOp.isOdd.apply .radians 18446744073709551616.0 = .ok 0.0 ∧ (0.0 + 0.0 : Float) ≠ 1.0 ∧
  UnaryOp.factorial.apply .radians 18446744073709551616.0 = .error .factorialOfNonNatural ∧
  UnaryOp.factors.apply .radians 18446744073709551616.0 = .error .factorsOfNonPositive ∧
  BinaryOp.gcd.apply 18446744073709551616.0 1.0 = .error (.fractionalOperand .gcd)
  := by
  refine ⟨⟨false, 2 ^ 52, 12, by decide +kernel, by norm_num⟩, ?_⟩
  decide +kernel

end Calculator
