import Calculator.Proofs.Number.Word
import Calculator.Proofs.Operation.Integrality

/-!
# Common divisors and multiples

The greatest common divisor of two numbers is exact, and the least common multiple is rounded once
(`BinaryOp.apply_gcd_apply_lcm`).

* `exists_gcd?`: the recursion of Euclid on words ends without a division by zero.
* A divisor of an operand has no more significant bits than the operand (`FitsMantissa.of_dvd`), so
  the greatest common divisor and the quotient by it are held exactly.
* `leastCommonMultiple_rounds`: the product of this quotient with the other operand is the least
  common multiple, and only here something is rounded.
-/

namespace Calculator

namespace Word

/-- A remainder is below the divisor. -/
theorem toNat_lt_of_mod? {a b rest : UInt64} (h : mod? a b = some rest) :
  rest.toNat < b.toNat
  := by
  rw [mod?] at h
  split at h
  · cases h
  · rename_i hne
    cases h
    rw [UInt64.toNat_mod]
    apply Nat.mod_lt
    apply Nat.pos_of_ne_zero
    intro hzero
    apply hne (UInt64.toNat_inj.mp hzero)

/-- The recursion of Euclid, on words. -/
def gcd? (a b : UInt64) : Option UInt64 :=
  if b = 0 then some a
  else
    match _hrest : mod? a b with
    | some rest => gcd? b rest
    | none => none
termination_by b.toNat
decreasing_by apply toNat_lt_of_mod? _hrest

/-- The factor that the first operand has in the least common multiple, on words. -/
def cofactor? (a b : UInt64) : Option UInt64 := do
  let divisor ← gcd? a b
  div? a divisor

end Word

/-! ### The recursion on words -/

/-- The recursion of Euclid on words ends without a division by zero, at the greatest common
divisor. -/
theorem exists_gcd? (a b : UInt64) :
  ∃ g : UInt64, Word.gcd? a b = some g ∧ g.toNat = a.toNat.gcd b.toNat
  := by
  induction hb : b.toNat using Nat.strong_induction_on generalizing a b with
  | h n ih =>
    subst hb
    rw [Word.gcd?]
    rcases Nat.eq_zero_or_pos b.toNat with hzero | hpos
    · use a
      rw [if_pos (UInt64.toNat_inj.mp hzero), hzero, Nat.gcd_zero_right]
      use rfl
    · have hne : ¬b = 0 := by
        rintro rfl
        cases hpos
      have hmod := Word.mod?_eq (a := a) hpos
      obtain ⟨g, hg, hvalue⟩ := ih _ (Word.toNat_lt_of_mod? hmod) b (a % b) rfl
      rw [if_neg hne]
      use g
      constructor
      · split
        · rename_i rest hrest
          cases hmod.symm.trans hrest
          apply hg
        · rename_i hrest
          cases hmod.symm.trans hrest
      · rw [hvalue, UInt64.toNat_mod, Nat.gcd_comm, ← Nat.gcd_rec, Nat.gcd_comm]

/-- The quotient of a positive word by the greatest common divisor with another one. -/
theorem exists_cofactor? {a : UInt64} (b : UInt64) (ha : 0 < a.toNat) :
  ∃ q : UInt64, Word.cofactor? a b = some q ∧ q.toNat = a.toNat / a.toNat.gcd b.toNat
  := by
  obtain ⟨g, hg, hvalue⟩ := exists_gcd? a b
  have hpos : 0 < g.toNat := by
    rw [hvalue]
    apply Nat.gcd_pos_of_pos_left _ ha
  use a / g
  rw [Word.cofactor?, hg, Option.bind_eq_bind, Option.bind_some, Word.div?_eq hpos,
    UInt64.toNat_div, hvalue]
  use rfl

/-! ### Exact divisors -/

/-- A positive divisor of a natural value of a number has no more significant bits. -/
theorem HasValue.fitsMantissa_of_dvd {x : Float} {n d : Nat} (h : HasValue x n) (hn : 0 < n)
    (hd : d ∣ n) :
  FitsMantissa d
  := by
  have hsize := h.hasSize (by exact_mod_cast hn)
  apply hsize.hasMagnitude.fitsMantissa.of_dvd hn hd

/-- The greatest common divisor of the natural values of two numbers has no more significant
bits than they have. -/
theorem HasValue.fitsMantissa_gcd {x y : Float} {a b : Nat} (hx : HasValue x a)
    (hy : HasValue y b) :
  FitsMantissa (a.gcd b)
  := by
  rcases Nat.eq_zero_or_pos a with rfl | ha
  · rcases Nat.eq_zero_or_pos b with rfl | hb
    · apply FitsMantissa.of_lt (by decide)
    · apply hy.fitsMantissa_of_dvd hb (Nat.gcd_dvd_right 0 b)
  · apply hx.fitsMantissa_of_dvd ha (Nat.gcd_dvd_left a b)

/-- The least common multiple of two positive natural values is rounded once. -/
theorem leastCommonMultiple_rounds {x y : Float} {a b : Nat} (hx : HasValue x a)
    (hy : HasValue y b) (ha : 0 < a) (hb : 0 < b) (ha' : a ≤ wholeLimit) (hb' : b ≤ wholeLimit) :
  RoundsSize (leastCommonMultiple a b) false (a.lcm b)
  := by
  have hdvd : a / a.gcd b ∣ a := Nat.div_dvd_of_dvd (Nat.gcd_dvd_left a b)
  have hquotient : 0 < a / a.gcd b := Nat.pos_of_dvd_of_pos hdvd ha
  have hle : a / a.gcd b ≤ wholeLimit := Nat.le_trans (Nat.le_of_dvd ha hdvd) ha'
  have hlimit : wholeLimit < 2 ^ 64 := by decide
  have hfactor := ((hx.fitsMantissa_of_dvd ha hdvd).hasMagnitude (by omega)).hasSize
    (by exact_mod_cast hquotient)
  have hother := ((hy.fitsMantissa_of_dvd hb (dvd_refl b)).hasMagnitude (by omega)).hasSize
    (by exact_mod_cast hb)
  have hlcm : a / a.gcd b * b = a.lcm b := by
    rw [Nat.lcm_eq_mul_div, Nat.div_mul_right_comm (Nat.gcd_dvd_left a b)]
  have hlarge : a / a.gcd b * b < 2 ^ 128 := by
    calc
      a / a.gcd b * b ≤ wholeLimit * wholeLimit := Nat.mul_le_mul hle hb'
      _ < 2 ^ 128 := by decide
  obtain ⟨hlow, hhigh⟩ := natCast_mem_range (Nat.mul_pos hquotient hb) hlarge
  rw [Nat.cast_mul] at hlow hhigh
  have hproduct := hfactor.mul hother (by exact_mod_cast hb) hlow hhigh
  rw [← Nat.cast_mul, hlcm] at hproduct
  rw [leastCommonMultiple, if_neg (by omega)]
  apply hproduct

/-! ### The operations -/

/-- The greatest common divisor of two natural values is exact. -/
theorem BinaryOp.apply_gcd {l r : Float} {a b : Nat} (hl : HasValue l a) (hr : HasValue r b)
    (ha : a ≤ wholeLimit) (hb : b ≤ wholeLimit) :
  ∃ g : UInt64, Word.gcd? l.toUInt64 r.toUInt64 = some g ∧
    BinaryOp.gcd.apply l r = .ok g.toFloat ∧ HasValue g.toFloat (a.gcd b)
  := by
  have hlimit : wholeLimit < 2 ^ 64 := by decide
  obtain ⟨g, hg, hvalue⟩ := exists_gcd? l.toUInt64 r.toUInt64
  rw [hl.toUInt64 (by omega), hr.toUInt64 (by omega)] at hvalue
  refine ⟨g, hg, ?_, ?_⟩
  · rw [apply, onNaturals_eq .gcd hl hr ha hb, ← hvalue, floatOfNat, UInt64.ofNat_toNat]
  · rw [← hvalue]
    apply hasValue_toFloat
    rw [hvalue]
    apply hl.fitsMantissa_gcd hr

/-- The least common multiple of two positive natural values is rounded once, after the operations
on words. -/
theorem BinaryOp.apply_lcm {l r : Float} {a b : Nat} (hl : HasValue l a) (hr : HasValue r b)
    (ha : a ≤ wholeLimit) (hb : b ≤ wholeLimit) (hapos : 0 < a) (hbpos : 0 < b) :
  ∃ q : UInt64, Word.cofactor? l.toUInt64 r.toUInt64 = some q ∧
    BinaryOp.lcm.apply l r = .ok (q.toFloat * r.toUInt64.toFloat) ∧
    RoundsSize (q.toFloat * r.toUInt64.toFloat) false (a.lcm b)
  := by
  have hlimit : wholeLimit < 2 ^ 64 := by decide
  have hleft := hl.toUInt64 (by omega)
  have hright := hr.toUInt64 (by omega)
  obtain ⟨q, hq, hvalue⟩ := exists_cofactor? r.toUInt64 (hleft.symm ▸ hapos)
  have hproduct : leastCommonMultiple a b = q.toFloat * r.toUInt64.toFloat := by
    rw [leastCommonMultiple, if_neg (by omega), floatOfNat, floatOfNat, ← hleft, ← hright, ← hvalue,
      UInt64.ofNat_toNat, UInt64.ofNat_toNat]
  refine ⟨q, hq, ?_, ?_⟩
  · rw [apply, onNaturals_eq .lcm hl hr ha hb, hproduct]
  · rw [← hproduct]
    apply leastCommonMultiple_rounds hl hr hapos hbpos ha hb

/-- At two natural values of at most `2 ^ 63` the greatest common divisor is exact, the least common
multiple is rounded once, both are symmetric, and the operations on words that they take neither
overflow nor divide by zero. -/
theorem BinaryOp.apply_gcd_apply_lcm {l r : Float} {a b : Nat} (hl : HasValue l a)
    (hr : HasValue r b) (ha : a ≤ 2 ^ 63) (hb : b ≤ 2 ^ 63) :
  l.toUInt64.toNat = a ∧ r.toUInt64.toNat = b ∧
  (∃ g : UInt64, Word.gcd? l.toUInt64 r.toUInt64 = some g ∧
    BinaryOp.gcd.apply l r = .ok g.toFloat ∧ BinaryOp.gcd.apply r l = .ok g.toFloat ∧
    HasValue g.toFloat (a.gcd b)) ∧
  (a = 0 ∨ b = 0 → BinaryOp.lcm.apply l r = .ok 0.0 ∧ BinaryOp.lcm.apply r l = .ok 0.0) ∧
  (0 < a → 0 < b → ∃ q : UInt64, Word.cofactor? l.toUInt64 r.toUInt64 = some q ∧
    ∃ y : Float, y = q.toFloat * r.toUInt64.toFloat ∧
      BinaryOp.lcm.apply l r = .ok y ∧ BinaryOp.lcm.apply r l = .ok y ∧
      RoundsSize y false (a.lcm b) ∧ ∀ z : Float, HasValue z (a.lcm b) → y = z)
  := by
  refine ⟨hl.toUInt64 (by omega), hr.toUInt64 (by omega), ?_, ?_, ?_⟩
  · obtain ⟨g, hg, hleft, hvalue⟩ := apply_gcd hl hr ha hb
    have hsymm : BinaryOp.gcd.apply r l = BinaryOp.gcd.apply l r := by
      rw [apply, onNaturals_eq .gcd hr hl hb ha, apply, onNaturals_eq .gcd hl hr ha hb,
        Nat.gcd_comm]
    rw [hsymm]
    exact ⟨g, hg, hleft, hleft, hvalue⟩
  · intro hzero
    rw [apply, onNaturals_eq .lcm hl hr ha hb, apply, onNaturals_eq .lcm hr hl hb ha,
      leastCommonMultiple, if_pos hzero, leastCommonMultiple, if_pos hzero.symm]
    use rfl
  · intro hapos hbpos
    obtain ⟨q, hq, hleft, hrounds⟩ := apply_lcm hl hr ha hb hapos hbpos
    obtain ⟨q', -, hright, hrounds'⟩ := apply_lcm hr hl hb ha hbpos hapos
    rw [Nat.lcm_comm] at hrounds'
    rw [hrounds'.eq hrounds] at hright
    refine ⟨q, hq, _, rfl, hleft, hright, hrounds, ?_⟩
    intro z hz
    apply hrounds.eq
    apply HasSize.rounds
    apply hz.hasSize
    exact_mod_cast Nat.lcm_pos hapos hbpos

/-- Operands of more than fifty-three bits: three and five times large powers of two. -/
theorem BinaryOp.apply_gcd_apply_lcm_large :
  (∃ g : Float, BinaryOp.gcd.apply 6917529027641081856.0 5764607523034234880.0 = .ok g ∧
    HasValue g (2 ^ 60 : Nat)) ∧
  ∃ y : Float, BinaryOp.lcm.apply 6917529027641081856.0 5764607523034234880.0 = .ok y ∧
    RoundsSize y false (15 * 2 ^ 61 : Nat)
  := by
  have hl : HasValue 6917529027641081856.0 (3 * 2 ^ 61 : Nat) :=
    ⟨false, 3 * 2 ^ 51, 10, by decide +kernel, by norm_num⟩
  have hr : HasValue 5764607523034234880.0 (5 * 2 ^ 60 : Nat) :=
    ⟨false, 5 * 2 ^ 50, 10, by decide +kernel, by norm_num⟩
  obtain ⟨-, -, ⟨g, -, hgcd, -, hvalue⟩, -, hlcm⟩ :=
    apply_gcd_apply_lcm hl hr (by decide) (by decide)
  obtain ⟨-, -, y, -, hlcm, -, hrounds, -⟩ := hlcm (by decide) (by decide)
  exact ⟨⟨g.toFloat, hgcd, hvalue⟩, y, hlcm, hrounds⟩

end Calculator
