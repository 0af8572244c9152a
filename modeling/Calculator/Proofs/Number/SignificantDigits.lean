import Calculator.Proofs.Number.Numeral
import Calculator.Proofs.Number.Size

/-!
# Significant digits

`RoundsToDigits count v w` says that a value is rounded to a number of significant digits, a tie to
the even digit.

* A quotient is rounded once (`Rounding.roundsTo_quotient_nearestEven`), in units of the last digit
  (`lt_zpow_leadingExponent` with the lower bound of the same kind), so that `Decimal.ofQuotient`
  has the digits asked for (`Decimal.isRounding_ofQuotient`).
* When rounding carries into a new digit, the unit grows by a factor of ten.  Rounding in this
  larger unit carries as well (`RoundsTo.div_ten`), so a value that is rounded once more at the
  place found by the first rounding gets the same digits.
* Digits without the zeros in front are as many as their value tells
  (`length_dropWhile_zero`).
-/

namespace Calculator

open Float.Model Float.Model.UnpackedFloat

/-! ### Rounding -/

/-- A quotient is rounded to the nearest natural number, a tie to the even one. -/
theorem Rounding.roundsTo_quotient_nearestEven (n : Nat) {d : Nat} (hd : 0 < d) :
  RoundsTo ((n : ℚ) / d) (Rounding.nearestEven.quotient false n d)
  := by
  obtain ⟨k, hk⟩ := exists_roundsTo (by positivity : 0 ≤ (n : ℚ) / d)
  have hround := (locates_div hd).roundToNearestEven hk
  have hquotient : Rounding.nearestEven.quotient false n d
      = (accuracyOfFraction (n % d) d).roundToNearestEven (n / d) := by
    rw [quotient, accuracyOfFraction]
    simp only [carries]
    by_cases hzero : n % d = 0
    · simp [hzero, Accuracy.roundToNearestEven, Nat.ne_of_gt hd]
    · rw [if_neg hzero]
      cases hcompare : compare (2 * (n % d)) d with
      | lt =>
        have hlt := Nat.compare_eq_lt.mp hcompare
        simp [Accuracy.roundToNearestEven, Nat.not_lt_of_gt hlt, Nat.ne_of_gt hlt]
      | eq =>
        have heq := Nat.compare_eq_eq.mp hcompare
        simp only [Accuracy.roundToNearestEven, heq, lt_irrefl, decide_false, decide_true,
          Bool.false_or, Bool.true_and, beq_iff_eq]
        split <;> omega
      | gt =>
        have hgt := Nat.compare_eq_gt.mp hcompare
        simp [Accuracy.roundToNearestEven, hgt]
  rw [hquotient, hround]
  apply hk

/-- What rounds to a power of ten from below still does so in a unit ten times as large. -/
theorem RoundsTo.div_ten {t : ℚ} {count : Nat} (h : RoundsTo t (10 ^ (count + 1)))
    (hlt : t < 10 ^ (count + 1)) :
  RoundsTo (t / 10) (10 ^ count)
  := by
  have hlow := h.low
  push_cast at hlow
  rw [pow_succ] at hlow hlt
  have hquotient : t / 10 < 10 ^ count := by linarith
  constructor
  · push_cast
    linarith
  · push_cast
    linarith
  · push_cast
    rintro (heq | heq) <;> linarith

/-- What is at least a natural number rounds to no smaller one. -/
theorem RoundsTo.natCast_le {t : ℚ} {m n : Nat} (h : RoundsTo t n) (hm : m ≤ t) :
  m ≤ n
  := by
  have hlt : (m : ℚ) < (n + 1 : Nat) := by
    push_cast
    linarith [h.high]
  apply Nat.le_of_lt_succ
  exact_mod_cast hlt

/-- What is below a natural number rounds to no larger one. -/
theorem RoundsTo.le_natCast {t : ℚ} {m n : Nat} (h : RoundsTo t n) (hm : t < m) :
  n ≤ m
  := by
  have hlt : (n : ℚ) < (m + 1 : Nat) := by
    push_cast
    linarith [h.low]
  apply Nat.le_of_lt_succ
  exact_mod_cast hlt

/-- A positive value rounded to a number of significant digits, a tie to the even digit.  The
leading digit of the value has the exponent `k`, and the unit is the place of the last digit. -/
def RoundsToDigits (count : Nat) (v w : ℚ) : Prop :=
  ∃ (k : Int) (s : Nat), 10 ^ k ≤ v ∧ v < 10 ^ (k + 1) ∧
    RoundsTo (v / 10 ^ (k - (count - 1 : Nat))) s ∧ w = s * 10 ^ (k - (count - 1 : Nat))

/-- In units of the last of some significant digits, a value has this number of digits. -/
theorem pow_le_div_unit {count : Nat} {k : Int} {v : ℚ} (hcount : 0 < count) (hlow : 10 ^ k ≤ v)
    (hhigh : v < 10 ^ (k + 1)) :
  10 ^ (count - 1) ≤ v / 10 ^ (k - (count - 1 : Nat)) ∧
    v / 10 ^ (k - (count - 1 : Nat)) < 10 ^ count
  := by
  have hunit : (0 : ℚ) < 10 ^ (k - (count - 1 : Nat)) := by positivity
  have hleading : ((count - 1 : Nat) : Int) + (k - (count - 1 : Nat)) = k := by omega
  have hnext : (count : Int) + (k - (count - 1 : Nat)) = k + 1 := by omega
  rw [le_div_iff₀ hunit, div_lt_iff₀ hunit, ← zpow_natCast, ← zpow_natCast,
    ← zpow_add₀ (by norm_num), ← zpow_add₀ (by norm_num), hleading, hnext]
  use hlow, hhigh

/-! ### Decimals -/

/-- The leading digit of a quotient does not stand for too little. -/
theorem lt_zpow_leadingExponent (n : Nat) {d : Nat} (hd : 0 < d) :
  (n : ℚ) / d < 10 ^ (leadingExponent n d + 1)
  := by
  have hdpos : (0 : ℚ) < d := by exact_mod_cast hd
  simp only [leadingExponent, Nat.pow_eq]
  generalize hguess : ((digits n).length : Int) - (digits d).length = guess
  split
  · have hlength : 0 < (digits d).length := Nat.length_toDigits_pos
    have hnumerator : (n : ℚ) < 10 ^ (digits n).length := by
      exact_mod_cast lt_pow_length_digits n
    have hdenominator : (10 : ℚ) ^ ((digits d).length - 1) ≤ d := by
      exact_mod_cast pow_length_digits_le hd
    have hexponent : guess + 1 = ((digits n).length : Int) - ((digits d).length - 1 : Nat) := by
      omega
    rw [hexponent, zpow_sub₀ (by norm_num), zpow_natCast, zpow_natCast]
    gcongr
  · rename_i hlt
    rw [Int.sub_add_cancel, zpow_eq_div (by norm_num), div_lt_div_iff₀ hdpos (by positivity)]
    rw [Nat.not_le, Nat.mul_comm d] at hlt
    exact_mod_cast hlt

/-- The value of a quotient divided by a power of ten. -/
theorem dividedByPowerOfTen_eq (n d : Nat) (exponent : Int) :
  ((dividedByPowerOfTen n d exponent).1 : ℚ) / (dividedByPowerOfTen n d exponent).2
    = n / d / 10 ^ exponent
  := by
  simp only [dividedByPowerOfTen, Nat.pow_eq]
  rw [zpow_eq_div (by norm_num)]
  push_cast
  field_simp

/-- The denominator stays positive. -/
theorem dividedByPowerOfTen_pos (n : Nat) {d : Nat} (hd : 0 < d) (exponent : Int) :
  0 < (dividedByPowerOfTen n d exponent).2
  := by
  simp only [dividedByPowerOfTen, Nat.pow_eq]
  positivity

/-- A decimal with a number of significant digits to which a positive value is rounded. -/
structure Decimal.IsRounding (x : Decimal) (count : Nat) (v : ℚ) : Prop where
  low : 10 ^ (count - 1) ≤ x.significand
  high : x.significand < 10 ^ count
  /-- The value is rounded in the unit of the last digit that is kept. -/
  rounds : RoundsTo (v / 10 ^ x.exponent) x.significand
  digits : RoundsToDigits count v x.value

/-- A positive quotient is rounded to the digits asked for. -/
theorem Decimal.isRounding_ofQuotient {count n d : Nat} (hcount : 0 < count) (hn : 0 < n)
    (hd : 0 < d) :
  (ofQuotient count n d).IsRounding count (n / d)
  := by
  have hleading := zpow_leadingExponent_le hn hd
  have hnext := lt_zpow_leadingExponent n hd
  simp only [ofQuotient, Nat.pow_eq]
  generalize leadingExponent n d = k at hleading hnext
  have hround := Rounding.roundsTo_quotient_nearestEven
    (dividedByPowerOfTen n d (k - (count - 1 : Nat))).1
    (dividedByPowerOfTen_pos n hd (k - (count - 1 : Nat)))
  rw [dividedByPowerOfTen_eq] at hround
  generalize Rounding.nearestEven.quotient false
    (dividedByPowerOfTen n d (k - (count - 1 : Nat))).1
    (dividedByPowerOfTen n d (k - (count - 1 : Nat))).2 = s at hround
  have hdigits : RoundsToDigits count (n / d) (s * 10 ^ (k - (count - 1 : Nat))) :=
    ⟨k, s, hleading, hnext, hround, rfl⟩
  obtain ⟨hlow, hhigh⟩ := pow_le_div_unit hcount hleading hnext
  have hleast : 10 ^ (count - 1) ≤ s := hround.natCast_le (by exact_mod_cast hlow)
  have hmost : s ≤ 10 ^ count := hround.le_natCast (by exact_mod_cast hhigh)
  split
  · rename_i hcarry
    subst hcarry
    obtain ⟨places, rfl⟩ := Nat.exists_eq_add_of_lt hcount
    simp only [Nat.zero_add, Nat.add_sub_cancel] at *
    have hunit : (10 : ℚ) ^ (k - places + 1) = 10 ^ (k - places) * 10 := zpow_add_one₀ (by norm_num) _
    constructor
    · exact Nat.le_refl _
    · simp only
      rw [Nat.pow_succ]
      have hpos : 0 < 10 ^ places := by positivity
      omega
    · simp only
      rw [hunit, ← div_div]
      apply hround.div_ten hhigh
    · rw [value]
      convert hdigits using 1
      simp only
      rw [hunit]
      push_cast
      ring
  · rename_i hcarry
    constructor
    · apply hleast
    · apply Nat.lt_of_le_of_ne hmost hcarry
    · apply hround
    · apply hdigits

/-! ### Digits -/

/-- The value of a digit in front of other digits. -/
theorem digitsValue_cons (d : Char) (ds : List Char) :
  digitsValue (d :: ds) = 10 ^ ds.length * (d.toNat - '0'.toNat) + digitsValue ds
  := by
  rw [← List.singleton_append, digitsValue_append]
  congr 2
  apply Nat.zero_add

/-- The value of digits is below the power of ten with their number. -/
theorem digitsValue_lt {ds : List Char} (hds : ∀ d ∈ ds, d.isDigit = true) :
  digitsValue ds < 10 ^ ds.length
  := by
  induction ds with
  | nil => decide
  | cons d ds ih =>
    rw [List.forall_mem_cons] at hds
    have hd : d.toNat ≤ 57 := (Char.isDigit_iff_toNat.mp hds.1).2
    have hzero : '0'.toNat = 48 := rfl
    have hle : 10 ^ ds.length * (d.toNat - '0'.toNat) ≤ 10 ^ ds.length * 9 := by
      apply Nat.mul_le_mul_left
      omega
    have hlt := ih hds.2
    rw [digitsValue_cons, List.length_cons, Nat.pow_succ]
    omega

/-- The value of digits of which the first is not zero is at least the power of ten of its place. -/
theorem pow_length_le_digitsValue {d : Char} (hd : d.isDigit = true) (hne : d ≠ '0')
    (ds : List Char) :
  10 ^ ds.length ≤ digitsValue (d :: ds)
  := by
  have hlow : 48 ≤ d.toNat := (Char.isDigit_iff_toNat.mp hd).1
  have hzero : '0'.toNat = 48 := rfl
  have hnonzero : d.toNat ≠ '0'.toNat := fun heq => hne (Char.toNat_inj.mp heq)
  have hle : 10 ^ ds.length * 1 ≤ 10 ^ ds.length * (d.toNat - '0'.toNat) := by
    apply Nat.mul_le_mul_left
    omega
  rw [digitsValue_cons]
  omega

/-- The digits without the zeros in front are as many as their value tells. -/
theorem length_dropWhile_zero {ds : List Char} {count : Nat} (hds : ∀ d ∈ ds, d.isDigit = true)
    (hcount : 0 < count) (hlow : 10 ^ (count - 1) ≤ digitsValue ds)
    (hhigh : digitsValue ds < 10 ^ count) :
  (ds.dropWhile (· == '0')).length = count
  := by
  induction ds with
  | nil =>
    have hpos : 0 < 10 ^ (count - 1) := Nat.pow_pos (by decide)
    apply absurd hlow (Nat.not_le.mpr hpos)
  | cons d ds ih =>
    rw [List.forall_mem_cons] at hds
    by_cases hd : d = '0'
    · have hvalue : digitsValue (d :: ds) = digitsValue ds := by
        rw [hd, digitsValue_cons, Nat.sub_self, Nat.mul_zero, Nat.zero_add]
      rw [hvalue] at hlow hhigh
      rw [List.dropWhile_cons_of_pos (by rw [hd]; rfl)]
      apply ih hds.2 hlow hhigh
    · have hleast := pow_length_le_digitsValue hds.1 hd ds
      have hmost := digitsValue_lt (List.forall_mem_cons.mpr hds)
      rw [List.dropWhile_cons_of_neg (by simpa using hd), List.length_cons]
      rw [List.length_cons] at hmost
      have hlt := (Nat.pow_lt_pow_iff_right (by decide : 1 < 10)).mp (hleast.trans_lt hhigh)
      have hlt' := (Nat.pow_lt_pow_iff_right (by decide : 1 < 10)).mp (hlow.trans_lt hmost)
      omega

end Calculator
