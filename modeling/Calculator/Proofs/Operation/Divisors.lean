import Calculator.Proofs.Number.Word
import Calculator.Proofs.Operation.Integrality

/-!
# Counting divisors

The operation on positive natural numbers that counts divisors is exact up to the size from which
on numbers no longer count as whole, and its loop runs on words without overflow
(`UnaryOp.apply_factors`).

* `card_factorPairs`: the numbers up to the square root of a number pair its divisors, each with its
  cofactor, and a root that is whole makes a pair with itself.
* `countDivisors_eq_card`: so the loop counts all divisors.
* `exists_countDivisors?`: the loop on words ends at the first number above the root, whose square
  still fits into a word.
-/

namespace Calculator

namespace Word

/-- The number of divisors found so far, after one more number has been tried. -/
def countDivisor? (n divisor found : UInt64) : Option UInt64 := do
  let rest ← mod? n divisor
  if rest = 0 then
    let square ← mul? divisor divisor
    add? found (if square = n then 1 else 2)
  else some found

/-- The loop that counts divisors, on words. -/
def countDivisorsFrom? (n divisor found : UInt64) : Option UInt64 := do
  let square ← mul? divisor divisor
  if square ≤ n then
    let found ← countDivisor? n divisor found
    match _hnext : add? divisor 1 with
    | some next => countDivisorsFrom? n next found
    | none => none
  else some found
termination_by UInt64.size - divisor.toNat
decreasing_by
  have hnext := ofNat?_eq_some_iff.mp _hnext
  have hlt := next.toNat_lt_size
  rw [UInt64.toNat_one] at hnext
  omega

/-- The number of divisors of a positive natural number, on words. -/
def countDivisors? (n : UInt64) : Option UInt64 :=
  countDivisorsFrom? n 1 0

end Word

/-! ### Pairs of divisors -/

/-- The pairs of factors of a number that are both at least `least`. -/
def factorPairs (n least : Nat) : Finset (Nat × Nat) :=
  {p ∈ n.divisorsAntidiagonal | least ≤ p.1 ∧ least ≤ p.2}

/-- Which pairs of factors are at least `least`. -/
theorem mem_factorPairs_iff {n least a b : Nat} (hn : 0 < n) :
  (a, b) ∈ factorPairs n least ↔ a * b = n ∧ least ≤ a ∧ least ≤ b
  := by
  simp [factorPairs, Nat.ne_of_gt hn]

/-- There are no pairs of factors above the square root. -/
theorem factorPairs_eq_empty {n least : Nat} (h : n < least * least) :
  factorPairs n least = ∅
  := by
  apply Finset.filter_eq_empty_iff.mpr
  rintro ⟨a, b⟩ hmem ⟨ha, hb⟩
  have hle := Nat.mul_le_mul ha hb
  rw [(Nat.mem_divisorsAntidiagonal.mp hmem).1] at hle
  omega

/-- A number that is no divisor is in no pair of factors. -/
theorem factorPairs_of_not_dvd {n least : Nat} (hn : 0 < n) (h : ¬least ∣ n) :
  factorPairs n least = factorPairs n (least + 1)
  := by
  ext ⟨a, b⟩
  rw [mem_factorPairs_iff hn, mem_factorPairs_iff hn]
  constructor
  · rintro ⟨rfl, ha, hb⟩
    refine ⟨rfl, Nat.lt_of_le_of_ne ha ?_, Nat.lt_of_le_of_ne hb ?_⟩
    · rintro rfl
      apply h (Nat.dvd_mul_right least b)
    · rintro rfl
      apply h (Nat.dvd_mul_left least a)
  · rintro ⟨hmul, ha, hb⟩
    exact ⟨hmul, Nat.le_of_succ_le ha, Nat.le_of_succ_le hb⟩

/-- A divisor that is not above the square root is in two pairs of factors, in front and behind. -/
theorem factorPairs_mul {a b : Nat} (ha : 0 < a) (hle : a ≤ b) :
  factorPairs (a * b) a = insert (a, b) (insert (b, a) (factorPairs (a * b) (a + 1)))
  := by
  have hn : 0 < a * b := Nat.mul_pos ha (Nat.lt_of_lt_of_le ha hle)
  ext ⟨c, d⟩
  rw [Finset.mem_insert, Finset.mem_insert, mem_factorPairs_iff hn, mem_factorPairs_iff hn,
    Prod.mk.injEq, Prod.mk.injEq]
  constructor
  · rintro ⟨hmul, hc, hd⟩
    rcases Nat.eq_or_lt_of_le hc with rfl | hc
    · left
      use rfl, Nat.eq_of_mul_eq_mul_left ha hmul
    · rcases Nat.eq_or_lt_of_le hd with rfl | hd
      · right
        left
        rw [Nat.mul_comm a b] at hmul
        use Nat.eq_of_mul_eq_mul_right ha hmul
      · right
        right
        use hmul, hc, hd
  · rintro (⟨rfl, rfl⟩ | ⟨rfl, rfl⟩ | ⟨hmul, hc, hd⟩)
    · use rfl
    · use Nat.mul_comm c d, hle
    · exact ⟨hmul, Nat.le_of_succ_le hc, Nat.le_of_succ_le hd⟩

/-- How many pairs of factors a number adds: one if it is the square root, two if it is another
divisor, none otherwise. -/
theorem card_factorPairs {n least : Nat} (hpos : 0 < least) (hle : least * least ≤ n) :
  (factorPairs n least).card = (factorPairs n (least + 1)).card
    + if n % least = 0 then (if least * least = n then 1 else 2) else 0
  := by
  have hn : 0 < n := Nat.lt_of_lt_of_le (Nat.mul_pos hpos hpos) hle
  split
  · rename_i hmod
    obtain ⟨b, rfl⟩ := Nat.dvd_of_mod_eq_zero hmod
    have hb : least ≤ b := Nat.le_of_mul_le_mul_left hle hpos
    have hfirst : (b, least) ∉ factorPairs (least * b) (least + 1) := by
      rw [mem_factorPairs_iff hn]
      omega
    have hsecond : (least, b) ∉ factorPairs (least * b) (least + 1) := by
      rw [mem_factorPairs_iff hn]
      omega
    rw [factorPairs_mul hpos hb]
    split
    · rename_i hsquare
      obtain rfl := Nat.eq_of_mul_eq_mul_left hpos hsquare
      rw [Finset.insert_idem, Finset.card_insert_of_notMem hfirst]
    · rename_i hsquare
      have hne : (least, b) ≠ (b, least) := by
        rintro heq
        apply hsquare
        rw [(Prod.mk.inj heq).1.symm]
      have hinsert : (least, b) ∉ insert (b, least) (factorPairs (least * b) (least + 1)) := by
        rw [Finset.mem_insert, not_or]
        use hne
      rw [Finset.card_insert_of_notMem hinsert, Finset.card_insert_of_notMem hfirst]
  · rename_i hmod
    rw [factorPairs_of_not_dvd hn fun hdvd => hmod (Nat.mod_eq_zero_of_dvd hdvd)]
    rfl

/-- The loop adds the pairs of factors from the present number on. -/
theorem countDivisorsFrom_eq (n : Nat) {divisor : Nat} (found : Nat) (hpos : 0 < divisor) :
  countDivisorsFrom n divisor found = found + (factorPairs n divisor).card
  := by
  induction divisor, found using countDivisorsFrom.induct n with
  | case1 divisor found h hmod ih =>
    rw [dite_eq_ite] at ih
    rw [countDivisorsFrom, dif_pos h, if_pos hmod, ih (Nat.succ_pos divisor),
      card_factorPairs hpos h.2, if_pos hmod]
    omega
  | case2 divisor found h hmod ih =>
    rw [countDivisorsFrom, dif_pos h, if_neg hmod, ih (Nat.succ_pos divisor),
      card_factorPairs hpos h.2, if_neg hmod]
    rfl
  | case3 divisor found h =>
    have hlt : n < divisor * divisor := Nat.lt_of_not_le fun hle => h ⟨hpos, hle⟩
    rw [countDivisorsFrom, dif_neg h, factorPairs_eq_empty hlt, Finset.card_empty, Nat.add_zero]

/-- The loop counts the divisors of a number. -/
theorem countDivisors_eq_card (n : Nat) :
  countDivisors n = n.divisors.card
  := by
  have hall : factorPairs n 1 = n.divisorsAntidiagonal := by
    apply Finset.filter_true_of_mem
    rintro ⟨a, b⟩ hmem
    obtain ⟨rfl, hne⟩ := Nat.mem_divisorsAntidiagonal.mp hmem
    exact ⟨Nat.pos_of_ne_zero (left_ne_zero_of_mul hne),
      Nat.pos_of_ne_zero (right_ne_zero_of_mul hne)⟩
  rw [countDivisors, countDivisorsFrom_eq n 0 Nat.one_pos, hall, Nat.zero_add,
    ← Nat.map_div_right_divisors, Finset.card_map]

/-- A pair of factors is counted by its smaller factor, so there are at most two for each number up
to the root. -/
theorem countDivisorsFrom_le (n divisor found : Nat) :
  countDivisorsFrom n divisor found ≤ found + 2 * (n.sqrt + 1 - divisor)
  := by
  induction divisor, found using countDivisorsFrom.induct n with
  | case1 divisor found h hmod ih =>
    rw [dite_eq_ite] at ih
    have hroot := Nat.le_sqrt.mpr h.2
    rw [countDivisorsFrom, dif_pos h, if_pos hmod]
    apply Nat.le_trans ih
    split <;> omega
  | case2 divisor found h hmod ih =>
    have hroot := Nat.le_sqrt.mpr h.2
    rw [countDivisorsFrom, dif_pos h, if_neg hmod]
    apply Nat.le_trans ih
    omega
  | case3 divisor found h =>
    rw [countDivisorsFrom, dif_neg h]
    apply Nat.le_add_right

/-! ### The loop on words -/

/-- The root of a number that counts as whole, and the number after it, have squares that fit. -/
theorem sqrt_lt_of_le_wholeLimit {n : Nat} (hn : n ≤ wholeLimit) :
  n.sqrt < 2 ^ 32 - 1
  := by
  rw [Nat.sqrt_lt']
  apply Nat.lt_of_le_of_lt hn
  decide

/-- One more number is tried without overflow. -/
theorem exists_countDivisor? (n : UInt64) {divisor found : UInt64} (hpos : 0 < divisor.toNat)
    (hsquare : divisor.toNat * divisor.toNat < 2 ^ 64) (hfound : found.toNat + 2 < 2 ^ 64) :
  ∃ c : UInt64, Word.countDivisor? n divisor found = some c ∧ c.toNat = found.toNat
    + if n.toNat % divisor.toNat = 0 then
        (if divisor.toNat * divisor.toNat = n.toNat then 1 else 2)
      else 0
  := by
  have hrest : n % divisor = 0 ↔ n.toNat % divisor.toNat = 0 := by
    rw [← UInt64.toNat_inj, UInt64.toNat_mod]
    rfl
  obtain ⟨square, hmul, hsquare⟩ := Word.exists_ofNat? hsquare
  have heq : square = n ↔ divisor.toNat * divisor.toNat = n.toNat := by
    rw [← UInt64.toNat_inj, hsquare]
  rw [Word.countDivisor?, Word.mod?_eq hpos, Word.mul?, hmul]
  simp only [Option.bind_eq_bind, Option.bind_some, hrest, heq]
  split
  · split
    · apply Word.exists_ofNat?
      change found.toNat + 1 < 2 ^ 64
      omega
    · apply Word.exists_ofNat? hfound
  · use found, rfl
    rfl

/-- What one pass of the loop does. -/
theorem countDivisorsFrom_of_le {n divisor : Nat} (found : Nat) (hpos : 0 < divisor)
    (hle : divisor * divisor ≤ n) :
  countDivisorsFrom n divisor found = countDivisorsFrom n (divisor + 1)
    (found + if n % divisor = 0 then (if divisor * divisor = n then 1 else 2) else 0)
  := by
  rw [countDivisorsFrom, dif_pos ⟨hpos, hle⟩]
  split <;> rfl

/-- The loop on words ends without overflow, with the same count.  The number of passes that are
left is the distance to the number after the root. -/
theorem exists_countDivisorsFrom? {n : UInt64} (hn : n.toNat ≤ wholeLimit) (count : Nat) :
  ∀ divisor found : UInt64, divisor.toNat + count = n.toNat.sqrt + 1 → 0 < divisor.toNat →
    found.toNat < 2 * divisor.toNat →
    ∃ c : UInt64, Word.countDivisorsFrom? n divisor found = some c ∧
      c.toNat = countDivisorsFrom n.toNat divisor.toNat found.toNat
  := by
  have hlimit := sqrt_lt_of_le_wholeLimit hn
  induction count with
  | zero =>
    intro divisor found hlast hpos hfound
    have hfits : divisor.toNat * divisor.toNat < 2 ^ 32 * 2 ^ 32 := by
      apply Nat.mul_lt_mul'' <;> omega
    have hlt : n.toNat < divisor.toNat * divisor.toNat := Nat.sqrt_lt.mp (by omega)
    obtain ⟨square, hmul, hsquare⟩ := Word.exists_ofNat? hfits
    have hstop : ¬square ≤ n := by
      rw [UInt64.le_iff_toNat_le, hsquare]
      omega
    use found
    rw [Word.countDivisorsFrom?, Word.mul?, hmul, Option.bind_eq_bind, Option.bind_some,
      if_neg hstop, countDivisorsFrom, dif_neg (by omega)]
    use rfl
  | succ count ih =>
    intro divisor found hlast hpos hfound
    have hfits : divisor.toNat * divisor.toNat < 2 ^ 32 * 2 ^ 32 := by
      apply Nat.mul_lt_mul'' <;> omega
    have hle := Nat.le_sqrt.mp (by omega : divisor.toNat ≤ n.toNat.sqrt)
    obtain ⟨square, hmul, hsquare⟩ := Word.exists_ofNat? hfits
    have hgo : square ≤ n := by
      rw [UInt64.le_iff_toNat_le, hsquare]
      apply hle
    obtain ⟨found', hcount, hfound'⟩ := exists_countDivisor? n hpos hfits
      (by omega : found.toNat + 2 < 2 ^ 64)
    obtain ⟨next, hadd, hnext⟩ := Word.exists_ofNat? (by omega : divisor.toNat + 1 < 2 ^ 64)
    obtain ⟨c, hc, hvalue⟩ := ih next found' (by omega) (by omega) (by
      rw [hfound', hnext]
      split
      · split <;> omega
      · omega)
    use c
    rw [Word.countDivisorsFrom?, Word.mul?, hmul]
    simp only [Option.bind_eq_bind, Option.bind_some, if_pos hgo, hcount]
    constructor
    · split
      · rename_i next' h
        cases hadd.symm.trans h
        apply hc
      · rename_i h
        cases hadd.symm.trans h
    · rw [hvalue, hfound', hnext, countDivisorsFrom_of_le found.toNat hpos hle]

/-- Counting divisors on words ends without overflow, and finds as many as there are. -/
theorem exists_countDivisors? {n : UInt64} (hn : n.toNat ≤ wholeLimit) :
  ∃ c : UInt64, Word.countDivisors? n = some c ∧ c.toNat = n.toNat.divisors.card
  := by
  obtain ⟨c, hc, hvalue⟩ := exists_countDivisorsFrom? hn n.toNat.sqrt 1 0 (Nat.add_comm _ _)
    Nat.one_pos Nat.two_pos
  use c, hc
  rw [hvalue, ← countDivisors_eq_card]
  rfl

/-! ### The operation -/

/-- The number of divisors is held exactly. -/
theorem card_divisors_lt {n : Nat} (hn : n ≤ wholeLimit) :
  n.divisors.card < 2 ^ 53
  := by
  have hlimit := sqrt_lt_of_le_wholeLimit hn
  have hle := countDivisorsFrom_le n 1 0
  rw [← countDivisors_eq_card, countDivisors]
  omega

/-- The number of divisors of a positive number that counts as whole: the loop on words ends
without overflow, and the operation answers with the exact count. -/
theorem UnaryOp.apply_factors {n : UInt64} (hpos : 1 ≤ n.toNat) (hn : n.toNat ≤ 2 ^ 63) :
  ∃ c : UInt64, Word.countDivisors? n = some c ∧ c.toNat = n.toNat.divisors.card ∧
    countDivisors n.toNat = n.toNat.divisors.card ∧
    ∀ (mode : AngleMode) (x : Float), HasValue x n.toNat →
      x.toUInt64 = n ∧ UnaryOp.factors.apply mode x = .ok c.toFloat ∧
        HasValue c.toFloat n.toNat.divisors.card
  := by
  obtain ⟨c, hc, hcard⟩ := exists_countDivisors? hn
  refine ⟨c, hc, hcard, countDivisors_eq_card n.toNat, ?_⟩
  intro mode x hx
  refine ⟨?_, ?_, ?_⟩
  · apply UInt64.toNat_inj.mp
    apply hx.toUInt64 n.toNat_lt
  · rw [apply_factors_of_le mode hx hpos hn, countDivisors_eq_card, ← hcard, floatOfNat,
      UInt64.ofNat_toNat]
  · rw [← hcard]
    apply hasValue_toFloat
    apply FitsMantissa.of_lt
    rw [hcard]
    apply card_divisors_lt hn

/-- The largest number that has its divisors counted has sixty-four. -/
theorem UnaryOp.apply_factors_two_pow :
  ∃ c : UInt64, Word.countDivisors? 9223372036854775808 = some c ∧ c.toNat = 64 ∧
    UnaryOp.factors.apply .degrees 9223372036854775808.0 = .ok c.toFloat ∧ HasValue c.toFloat 64
  := by
  have hvalue : HasValue 9223372036854775808.0 (9223372036854775808 : UInt64).toNat := by
    have hpower : (9223372036854775808 : UInt64).toNat = 2 ^ 63 := by decide
    refine ⟨false, 2 ^ 52, 11, by decide +kernel, ?_⟩
    norm_num [hpower]
  obtain ⟨c, hc, hcard, -, happly⟩ :=
    apply_factors (n := 9223372036854775808) (by decide) (by decide)
  obtain ⟨-, hfactors, hexact⟩ := happly .degrees _ hvalue
  have hdivisors : (9223372036854775808 : UInt64).toNat.divisors.card = 64 := by
    have hpower : (9223372036854775808 : UInt64).toNat = 2 ^ 63 := by decide
    rw [hpower, Nat.divisors_prime_pow Nat.prime_two, Finset.card_map, Finset.card_range]
  rw [hdivisors] at hcard hexact
  exact ⟨c, hc, hcard, hfactors, hexact⟩

end Calculator
