import Calculator.Operation.Apply
import Calculator.Proofs.Number.SquareRoot
import Calculator.Proofs.Number.Value

/-!
# Primality

The test for primes answers one for the numbers whose value is a prime, and zero for all other
numbers, those without a value included (`UnaryOp.apply_isPrime`).

* `noDivisorFrom_iff`: which divisors are tried.
* `noDivisorFrom_three_iff`: for an odd number it is enough to try the odd divisors up to any limit
  from the whole root on and below the number.  The limit that the rounded root gives is such a
  one (`HasSize.toUInt64_sqrt`, `sqrt_succ_lt`).
* `HasSize.le_wholeLimit`: no prime is so large that its number no longer counts as whole, as
  numbers of that size are even.
* `isPrime_iff`: so the test finds the numbers whose value is a prime.
-/

namespace Calculator

/-! ### Trial division -/

/-- No divisor is found if there is none among the limit and the numbers below it down to the
first one, in steps of two. -/
theorem noDivisorFrom_iff (n limit divisor : Nat) :
  noDivisorFrom n limit divisor = true ↔
    ∀ k : Nat, divisor ≤ k → k ≤ limit → k % 2 = divisor % 2 → ¬k ∣ n
  := by
  induction divisor using noDivisorFrom.induct n limit with
  | case1 divisor hle hdvd =>
    rw [noDivisorFrom, if_pos hle, if_pos hdvd]
    constructor
    · intro h
      cases h
    · intro h
      cases h divisor (Nat.le_refl _) hle rfl (Nat.dvd_of_mod_eq_zero hdvd)
  | case2 divisor hle hdvd ih =>
    rw [noDivisorFrom, if_pos hle, if_neg hdvd, ih]
    constructor
    · intro h k hlow hhigh hmod
      rcases Nat.eq_or_lt_of_le hlow with rfl | hlt
      · intro hk
        apply hdvd (Nat.mod_eq_zero_of_dvd hk)
      · apply h k (by omega) hhigh (by omega)
    · intro h k hlow hhigh hmod
      apply h k (by omega) hhigh (by omega)
  | case3 divisor hle =>
    rw [noDivisorFrom, if_neg hle]
    constructor
    · intro _ k hlow hhigh
      omega
    · intro _
      rfl

/-- An odd number is prime if no odd number divides it from three on up to a limit that is at least
its whole root and below it. -/
theorem noDivisorFrom_three_iff {n limit : Nat} (hn : 2 < n) (hodd : n % 2 = 1)
    (hroot : n.sqrt ≤ limit) (hlimit : limit < n) :
  noDivisorFrom n limit 3 = true ↔ n.Prime
  := by
  rw [noDivisorFrom_iff]
  constructor
  · intro h
    by_contra hprime
    have hfactor := Nat.minFac_prime (by omega : n ≠ 1)
    have hsmall : n.minFac ≤ n.sqrt := by
      rw [Nat.le_sqrt']
      apply Nat.minFac_sq_le_self (by omega) hprime
    have htwo : n.minFac ≠ 2 := by
      intro heq
      have hdvd := n.minFac_dvd
      rw [heq] at hdvd
      omega
    have hfactorOdd := hfactor.eq_two_or_odd.resolve_left htwo
    have hle := hfactor.two_le
    apply h n.minFac (by omega) (by omega) (by omega) n.minFac_dvd
  · intro hprime k hlow hhigh _ hdvd
    rcases (Nat.dvd_prime hprime).mp hdvd with hone | hself
    · omega
    · omega

/-- The next number after the whole root of a number above two is below the number. -/
theorem sqrt_succ_lt {n : Nat} (hn : 2 < n) :
  n.sqrt + 1 < n
  := by
  have hle := Nat.sqrt_le n
  rcases Nat.lt_or_ge n.sqrt 2 with hroot | hroot
  · omega
  · have hdouble := Nat.mul_le_mul_right n.sqrt hroot
    omega

/-! ### Whole numbers -/

/-- No prime is the value of a number that is too large to count as whole. -/
theorem HasSize.le_wholeLimit {x : Float} {p : Nat} (h : HasSize x false p) (hp : p.Prime) :
  p ≤ wholeLimit
  := by
  obtain ⟨m, e, hread, -, hv⟩ := h
  have hm := (Reading.isCanonical_of_ofFloat hread).lt
  rcases le_or_gt e 0 with he | he
  · have hle : (p : ℚ) ≤ m := by
      rw [← hv]
      apply mul_le_of_le_one_right (by positivity)
      apply zpow_le_one_of_nonpos₀ (by norm_num) he
    rw [Nat.cast_le] at hle
    apply Nat.le_trans hle
    apply Nat.le_trans (Nat.le_of_lt hm)
    decide
  · -- Large numbers are even.
    obtain ⟨k, rfl⟩ : ∃ k : Nat, e = (k + 1 : Nat) := ⟨e.toNat - 1, by omega⟩
    have heven : p = 2 * (m * 2 ^ k) := by
      rw [zpow_natCast, pow_succ] at hv
      have hcast : ((2 * (m * 2 ^ k) : Nat) : ℚ) = p := by
        rw [← hv]
        push_cast
        ring
      exact_mod_cast hcast.symm
    have htwo : 2 = p := (Nat.prime_dvd_prime_iff_eq Nat.prime_two hp).mp ⟨_, heven⟩
    rw [← htwo]
    decide

/-- The positive numbers that count as whole are those whose value is a natural number up to the
size from which on numbers no longer count as whole. -/
theorem whole?_eq_some_natCast_iff {x : Float} {n : Nat} (hpos : 0 < n) :
  whole? x = some (n : Int) ↔ HasSize x false n ∧ n ≤ wholeLimit
  := by
  rw [whole?_eq_some_iff, Int.cast_natCast, Int.natAbs_natCast]
  have hcast : (0 : ℚ) < n := by exact_mod_cast hpos
  constructor
  · rintro ⟨hvalue, hle⟩
    use hvalue.hasSize hcast
  · rintro ⟨hsize, hle⟩
    use hsize.hasMagnitude.hasValue

/-! ### The test for primes -/

/-- The test decides whether a number that is whole is a prime. -/
theorem isPrime_of_whole? {x : Float} {n : Int} (h : whole? x = some n) :
  isPrime x = true ↔ ∃ p : Nat, p.Prime ∧ n = p
  := by
  rw [isPrime, h]
  simp only
  split
  · rename_i hlow
    constructor
    · intro hfalse
      cases hfalse
    · rintro ⟨p, hp, rfl⟩
      have htwo := hp.two_le
      omega
  · split
    · rename_i htwo
      constructor
      · intro _
        use 2, Nat.prime_two, htwo
      · intro _
        rfl
    · obtain ⟨k, rfl⟩ := Int.eq_ofNat_of_zero_le (by omega : 0 ≤ n)
      rw [Int.toNat_natCast]
      split
      · rename_i hne heven
        constructor
        · intro hfalse
          cases hfalse
        · rintro ⟨p, hp, hk⟩
          rcases hp.eq_two_or_odd with rfl | hodd <;> omega
      · rename_i hle hne hodd
        obtain ⟨hsize, hle⟩ := (whole?_eq_some_natCast_iff (by omega)).mp h
        have hlimit : k < 2 ^ 64 := by
          apply Nat.lt_of_le_of_lt hle
          decide
        obtain ⟨hroot, hnext⟩ := hsize.toUInt64_sqrt (by omega) hlimit
        have hbelow := Nat.lt_of_le_of_lt hnext (sqrt_succ_lt (by omega))
        rw [noDivisorFrom_three_iff (by omega) (by omega) hroot hbelow]
        constructor
        · intro hprime
          use k
        · rintro ⟨p, hp, hk⟩
          rw [Int.natCast_inj.mp hk]
          apply hp

/-- The test finds the numbers whose value is a prime. -/
theorem isPrime_iff (x : Float) :
  isPrime x = true ↔ ∃ p : Nat, p.Prime ∧ HasSize x false p
  := by
  constructor
  · intro h
    cases hwhole : whole? x with
    | none =>
      rw [isPrime, hwhole] at h
      cases h
    | some n =>
      obtain ⟨p, hp, rfl⟩ := (isPrime_of_whole? hwhole).mp h
      exact ⟨p, hp, ((whole?_eq_some_natCast_iff hp.pos).mp hwhole).1⟩
  · rintro ⟨p, hp, hsize⟩
    have hwhole := (whole?_eq_some_natCast_iff hp.pos).mpr ⟨hsize, hsize.le_wholeLimit hp⟩
    apply (isPrime_of_whole? hwhole).mpr
    use p

-- The square of a prime has no divisor below the limit, only the limit itself.
example : isPrime 25.0 = false := by decide +kernel

/-- The test for primes answers one for a number whose value is a prime, and zero for any other. -/
theorem UnaryOp.apply_isPrime (mode : AngleMode) (x : Float) :
  (UnaryOp.isPrime.apply mode x = .ok 1.0 ↔ ∃ p : Nat, p.Prime ∧ HasSize x false p) ∧
  (UnaryOp.isPrime.apply mode x = .ok 0.0 ↔ ¬∃ p : Nat, p.Prime ∧ HasSize x false p)
  := by
  have hne : (1.0 : Float) ≠ 0.0 := by decide +kernel
  rw [← isPrime_iff, apply, indicator]
  cases Calculator.isPrime x <;> simp [hne, hne.symm]

end Calculator
