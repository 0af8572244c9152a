import Calculator.Number.Shortest
import Calculator.Proofs.Number.Scientific

/-!
# Shortest decimals read back

A decimal lies in the interval of the values that read back as a number exactly when the number
is nearest to it (`ReadBack.contains_around_iff`).  With few digits there may be no such decimal,
but with seventeen there always is one (`nearestReadBack?_ne_none`), so that the search for the
shortest ends with a decimal that reads back (`isNearest_shortestDecimal`).
-/

namespace Calculator

/-- The value of a decimal. -/
def Decimal.value (x : Decimal) : ℚ :=
  x.significand * 10 ^ x.exponent

/-- The value of a decimal as a quotient of natural numbers. -/
theorem Decimal.value_eq (x : Decimal) :
  x.value = (x.significand * 10 ^ x.exponent.toNat : Nat) / (10 ^ (-x.exponent).toNat : Nat)
  := by
  rw [value, zpow_eq_div (by norm_num)]
  push_cast
  rw [mul_div_assoc]

namespace ReadBack

/-- Whether a decimal lies in an interval, by its value. -/
theorem contains_iff {interval : ReadBack} (hd : 0 < interval.denominator) (x : Decimal) :
  interval.contains x = true ↔
    (interval.low : ℚ) / interval.denominator ≤ x.value ∧
    x.value ≤ (interval.high : ℚ) / interval.denominator ∧
    (x.value = (interval.low : ℚ) / interval.denominator ∨
      x.value = (interval.high : ℚ) / interval.denominator → interval.closed = true)
  := by
  have hdpos : (0 : ℚ) < interval.denominator := by exact_mod_cast hd
  have hunit : (0 : ℚ) < (10 ^ (-x.exponent).toNat : Nat) := by
    exact_mod_cast Nat.pow_pos (by decide)
  rw [x.value_eq, div_le_div_iff₀ hdpos hunit, div_le_div_iff₀ hunit hdpos,
    div_eq_div_iff (ne_of_gt hunit) (ne_of_gt hdpos),
    div_eq_div_iff (ne_of_gt hunit) (ne_of_gt hdpos)]
  norm_cast
  cases hclosed : interval.closed with
  | true =>
    simp [contains, hclosed]
  | false =>
    simp only [contains, hclosed, Nat.pow_eq]
    simp
    omega

/-- The interval of a positive number holds the decimals to which the number is nearest. -/
theorem contains_around_iff {m : Nat} {e : Int} (hm : 0 < m) (x : Decimal) :
  (around m e).contains x = true ↔ IsNearest x.value m e
  := by
  have hd : 0 < (around m e).denominator := by
    apply Nat.mul_pos (by decide) (scaledDenominator_pos e)
  have hscale : ∀ a : Nat, (scaledNumerator a e : ℚ) / (4 * scaledDenominator e : Nat)
      = a / 4 * 2 ^ e := by
    intro a
    rw [Nat.cast_mul, mul_comm, ← div_div, scaledNumerator_div_scaledDenominator]
    push_cast
    ring
  have hlow : ((around m e).low : ℚ) / (around m e).denominator = (m - gapBelow m e) * 2 ^ e := by
    simp only [around, gapBelow, Nat.pow_eq]
    rw [hscale]
    split
    · rw [Nat.cast_sub (by omega)]
      push_cast
      ring
    · rw [Nat.cast_sub (by omega)]
      push_cast
      ring
  have hhigh : ((around m e).high : ℚ) / (around m e).denominator = (m + 1 / 2) * 2 ^ e := by
    simp only [around]
    rw [hscale]
    push_cast
    ring
  rw [contains_iff hd, hlow, hhigh]
  simp only [around, beq_iff_eq]
  constructor
  · rintro ⟨hl, hh, ht⟩
    use hl, hh, ht
  · rintro ⟨hl, hh, ht⟩
    use hl, hh, ht

end ReadBack

/-! ### The leading digit -/

/-- A natural number has no more digits than it is written with. -/
theorem lt_pow_length_digits (n : Nat) :
  n < 10 ^ (digits n).length
  := by
  apply (Nat.length_toDigits_le_iff (by decide) Nat.length_toDigits_pos).mp
  apply Nat.le_refl

/-- A positive natural number has as many digits as it is written with. -/
theorem pow_length_digits_le {n : Nat} (hn : 0 < n) :
  10 ^ ((digits n).length - 1) ≤ n
  := by
  rcases Nat.eq_zero_or_pos ((digits n).length - 1) with hzero | hpos
  · rw [hzero]
    apply hn
  · apply Nat.le_of_not_lt
    intro hlt
    have hle := (Nat.length_toDigits_le_iff (by decide) hpos).mpr hlt
    change (digits n).length ≤ (digits n).length - 1 at hle
    omega

/-- The leading digit of a quotient does not stand for more than the quotient. -/
theorem zpow_leadingExponent_le {n d : Nat} (hn : 0 < n) (hd : 0 < d) :
  (10 : ℚ) ^ leadingExponent n d ≤ n / d
  := by
  have hdpos : (0 : ℚ) < d := by exact_mod_cast hd
  simp only [leadingExponent, Nat.pow_eq]
  generalize hguess : ((digits n).length : Int) - (digits d).length = guess
  split
  · rename_i hle
    rw [zpow_eq_div (by norm_num), div_le_div_iff₀ (by positivity) hdpos]
    rw [Nat.mul_comm] at hle
    exact_mod_cast hle
  · have hlength : 0 < (digits n).length := Nat.length_toDigits_pos
    have hnumerator : (10 : ℚ) ^ ((digits n).length - 1) ≤ n := by
      exact_mod_cast pow_length_digits_le hn
    have hdenominator : (d : ℚ) ≤ 10 ^ (digits d).length := by
      exact_mod_cast Nat.le_of_lt (lt_pow_length_digits d)
    have hexponent : guess - 1 = ((digits n).length - 1 : Nat) - ((digits d).length : Int) := by
      omega
    rw [hexponent, zpow_sub₀ (by norm_num), zpow_natCast, zpow_natCast]
    gcongr

/-! ### Seventeen digits -/

/-- A value strictly inside the interval of a number goes to the number. -/
theorem IsNearest.of_lt {v : ℚ} {m : Nat} {e : Int} (hlow : (m - gapBelow m e) * 2 ^ e < v)
    (hhigh : v < (m + 1 / 2) * 2 ^ e) :
  IsNearest v m e
  := by
  constructor
  · apply le_of_lt hlow
  · apply le_of_lt hhigh
  · rintro (heq | heq)
    · linarith
    · linarith

/-- The interval of a number is wider than the number in units of its seventeenth digit. -/
theorem lt_gapBelow {m : Nat} {e : Int} (hc : IsCanonical m e) :
  (m : ℚ) < 10 ^ 16 * (gapBelow m e + 1 / 2)
  := by
  unfold gapBelow
  split
  · rename_i hpower
    rw [hpower.1]
    norm_num
  · have hlt : (m : ℚ) < 2 ^ 53 := by exact_mod_cast hc.lt
    linarith

/-- One of two neighbouring decimals with seventeen digits around a number goes to it. -/
theorem isNearest_or {m : Nat} {e : Int} (hc : IsCanonical m e) {below unit : ℚ}
    (hunit : 10 ^ 16 * unit ≤ m * 2 ^ e) (hbelow : below ≤ m * 2 ^ e)
    (habove : m * 2 ^ e < below + unit) :
  IsNearest below m e ∨ IsNearest (below + unit) m e
  := by
  have hpos : (0 : ℚ) < 2 ^ e := by positivity
  have hgap := gapBelow_pos m e
  by_contra hnot
  obtain ⟨hnotBelow, hnotAbove⟩ := not_or.mp hnot
  have hlow : below ≤ (m - gapBelow m e) * 2 ^ e := by
    by_contra hlt
    apply hnotBelow
    apply IsNearest.of_lt (lt_of_not_ge hlt)
    apply lt_of_le_of_lt hbelow
    gcongr
    linarith
  have hhigh : (m + 1 / 2) * 2 ^ e ≤ below + unit := by
    by_contra hlt
    apply hnotAbove
    apply IsNearest.of_lt _ (lt_of_not_ge hlt)
    apply lt_trans _ habove
    gcongr
    linarith
  have hwidth : (10 : ℚ) ^ 16 * (gapBelow m e + 1 / 2) * 2 ^ e ≤ m * 2 ^ e := by
    linarith
  apply not_lt.mpr (le_of_mul_le_mul_right hwidth hpos)
  apply lt_gapBelow hc

/-- The significand that a quotient has, rounded down, with a given exponent. -/
def significandBelow (n d : Nat) (exponent : Int) : Nat :=
  (dividedByPowerOfTen n d exponent).1 / (dividedByPowerOfTen n d exponent).2

/-- The next decimal with the same exponent. -/
theorem Decimal.value_succ (significand : Nat) (exponent : Int) :
  (Decimal.mk (significand + 1) exponent).value
    = (Decimal.mk significand exponent).value + 10 ^ exponent
  := by
  rw [value, value]
  push_cast
  ring

/-- A quotient lies between two neighbouring decimals. -/
theorem value_significandBelow {n d : Nat} (hd : 0 < d) (exponent : Int) :
  (Decimal.mk (significandBelow n d exponent) exponent).value ≤ n / d ∧
    n / d < (Decimal.mk (significandBelow n d exponent) exponent).value + 10 ^ exponent
  := by
  have hten : (0 : ℚ) < 10 ^ exponent := by positivity
  have hb : 0 < d * 10 ^ exponent.toNat := by positivity
  have hquotient : (n : ℚ) / d
      = (n * 10 ^ (-exponent).toNat : Nat) / (d * 10 ^ exponent.toNat : Nat) * 10 ^ exponent := by
    rw [zpow_eq_div (by norm_num)]
    push_cast
    field_simp
  have hlocates := locates_div hb (n := n * 10 ^ (-exponent).toNat)
  rw [hquotient, ← Decimal.value_succ, Decimal.value, Decimal.value]
  constructor
  · apply mul_le_mul_of_nonneg_right hlocates.le (le_of_lt hten)
  · apply mul_lt_mul_of_pos_right _ hten
    rw [Nat.cast_add_one]
    apply hlocates.lt

/-- What is found reads back. -/
theorem contains_of_nearestReadBack? {interval : ReadBack} {n d : Nat} {exponent : Int}
    {x : Decimal} (h : nearestReadBack? interval n d exponent = some x) :
  interval.contains x = true
  := by
  simp only [nearestReadBack?] at h
  split at h
  · rename_i hbelow habove
    cases h
    split
    · apply hbelow
    · apply habove
  · rename_i hbelow _
    cases h
    apply hbelow
  · rename_i _ habove
    cases h
    apply habove
  · cases h

/-- Something is found with seventeen digits. -/
theorem nearestReadBack?_ne_none {m : Nat} {e : Int} (hc : IsCanonical m e) (hm : 0 < m)
    {n d : Nat} (hd : 0 < d) (hvalue : (n : ℚ) / d = m * 2 ^ e) {exponent : Int}
    (hexponent : 10 ^ 16 * 10 ^ exponent ≤ (m * 2 ^ e : ℚ)) :
  nearestReadBack? (.around m e) n d exponent ≠ none
  := by
  obtain ⟨hbelow, habove⟩ := value_significandBelow hd exponent (n := n)
  rw [hvalue] at hbelow habove
  intro hnone
  simp only [nearestReadBack?] at hnone
  split at hnone
  · cases hnone
  · cases hnone
  · cases hnone
  · rename_i hnotBelow hnotAbove
    rw [← Bool.not_eq_true, ReadBack.contains_around_iff hm] at hnotBelow hnotAbove
    rw [Decimal.value_succ] at hnotAbove
    rcases isNearest_or hc hexponent hbelow habove with h | h
    · apply hnotBelow h
    · apply hnotAbove h

/-- The search ends with a decimal that reads back, if there is one with the last exponent. -/
theorem contains_shortestFrom {interval : ReadBack} {n d : Nat} :
  ∀ {count : Nat} {exponent : Int}, nearestReadBack? interval n d (exponent - count) ≠ none →
    interval.contains (shortestFrom interval n d exponent (count + 1)) = true
  | count, exponent, h => by
      rw [shortestFrom]
      cases hfound : nearestReadBack? interval n d exponent with
      | some x => apply contains_of_nearestReadBack? hfound
      | none =>
        cases count with
        | zero =>
          rw [Int.natCast_zero, Int.sub_zero] at h
          cases h hfound
        | succ count =>
          apply contains_shortestFrom
          have heq : exponent - (count + 1 : Nat) = exponent - 1 - count := by omega
          rw [← heq]
          apply h

/-- The shortest decimal of a number reads back. -/
theorem isNearest_shortestDecimal {m : Nat} {e : Int} (hc : IsCanonical m e) (hm : 0 < m) :
  IsNearest (shortestDecimal m e).value m e
  := by
  have hn := scaledNumerator_pos hm e
  have hd := scaledDenominator_pos e
  have hvalue := scaledNumerator_div_scaledDenominator m e
  have hleading := zpow_leadingExponent_le hn hd
  rw [hvalue] at hleading
  apply (ReadBack.contains_around_iff hm _).mp
  apply contains_shortestFrom
  apply nearestReadBack?_ne_none hc hm hd hvalue
  rw [← zpow_natCast, ← zpow_add₀ (by norm_num)]
  have heq : (16 : Nat) + (leadingExponent (scaledNumerator m e) (scaledDenominator e) - (16 : Nat))
      = leadingExponent (scaledNumerator m e) (scaledDenominator e) := by omega
  rw [heq]
  apply hleading

end Calculator
