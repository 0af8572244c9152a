import Calculator.Proofs.Number.SquareRoot
import Calculator.Proofs.Number.Value

/-!
# Machine words

Loops over natural numbers run on words of sixty-four bits.  Here every operation on words is
checked: it has no result where the exact one does not fit into a word, and none for a divisor of
zero.  A computation of such operations that has a result met neither, and its result is the one
that natural numbers have.

* `Word.ofNat?_eq_some_iff`: the word with a value.
* `SignedWord.ofInt?_eq_some_iff`: the word with a sign that has a value.
* `HasValue.toUInt64`: the word to which a number with a natural value is cast.
* `hasValue_toFloat`: the number to which a word is cast.
-/

namespace Calculator

open Float.Model

namespace Word

/-- The word with a value, if the value fits. -/
def ofNat? (n : Nat) : Option UInt64 :=
  if n < UInt64.size then some (UInt64.ofNat n) else none

/-- A sum, if it fits. -/
def add? (a b : UInt64) : Option UInt64 :=
  ofNat? (a.toNat + b.toNat)

/-- A product, if it fits. -/
def mul? (a b : UInt64) : Option UInt64 :=
  ofNat? (a.toNat * b.toNat)

/-- A whole quotient, unless the divisor is zero. -/
def div? (a b : UInt64) : Option UInt64 :=
  if b = 0 then none else some (a / b)

/-- A remainder, unless the divisor is zero. -/
def mod? (a b : UInt64) : Option UInt64 :=
  if b = 0 then none else some (a % b)

/-- The word with a value is the one that has it. -/
theorem ofNat?_eq_some_iff {n : Nat} {w : UInt64} :
  ofNat? n = some w ↔ w.toNat = n
  := by
  rw [ofNat?]
  constructor
  · intro h
    split at h
    · rename_i hlt
      cases h
      apply UInt64.toNat_ofNat_of_lt hlt
    · cases h
  · rintro rfl
    rw [if_pos w.toNat_lt, UInt64.ofNat_toNat]

/-- A value below the number of words is that of a word. -/
theorem exists_ofNat? {n : Nat} (h : n < 2 ^ 64) :
  ∃ w : UInt64, ofNat? n = some w ∧ w.toNat = n
  := by
  use UInt64.ofNat n
  rw [ofNat?_eq_some_iff, and_self]
  apply UInt64.toNat_ofNat_of_lt h

/-- The quotient by a word other than zero. -/
theorem div?_eq {a b : UInt64} (h : 0 < b.toNat) :
  div? a b = some (a / b)
  := by
  apply if_neg
  rintro rfl
  cases h

/-- The remainder by a word other than zero. -/
theorem mod?_eq {a b : UInt64} (h : 0 < b.toNat) :
  mod? a b = some (a % b)
  := by
  apply if_neg
  rintro rfl
  cases h

end Word

namespace SignedWord

/-- The word with a sign that has a value, if the value fits. -/
def ofInt? (n : Int) : Option Int64 :=
  if -2 ^ 63 ≤ n ∧ n < 2 ^ 63 then some (Int64.ofInt n) else none

/-- A size, if it fits. -/
def abs? (a : Int64) : Option Int64 :=
  ofInt? a.toInt.natAbs

/-- A quotient toward zero, if it fits and the divisor is not zero. -/
def div? (a b : Int64) : Option Int64 :=
  if b = 0 then none else ofInt? (a.toInt.tdiv b.toInt)

/-- The remainder of a quotient toward zero, if there is this quotient. -/
def rem? (a b : Int64) : Option Int64 :=
  (div? a b).bind fun _ => ofInt? (a.toInt.tmod b.toInt)

/-- The word with a value is the one that has it. -/
theorem ofInt?_eq_some_iff {n : Int} {w : Int64} :
  ofInt? n = some w ↔ w.toInt = n
  := by
  rw [ofInt?]
  constructor
  · intro h
    split at h
    · rename_i hrange
      cases h
      apply Int64.toInt_ofInt_of_le hrange.1 hrange.2
    · cases h
  · rintro rfl
    rw [if_pos ⟨w.le_toInt, w.toInt_lt⟩, Int64.ofInt_toInt]

/-- A value in range is that of a word. -/
theorem exists_ofInt? {n : Int} (hlow : -2 ^ 63 ≤ n) (hhigh : n < 2 ^ 63) :
  ∃ w : Int64, ofInt? n = some w ∧ w.toInt = n
  := by
  use Int64.ofInt n
  rw [ofInt?_eq_some_iff, and_self]
  apply Int64.toInt_ofInt_of_le hlow hhigh

/-- The quotient by a positive word fits. -/
theorem exists_div? (a : Int64) {b : Int64} (hb : 0 < b.toInt) :
  ∃ w : Int64, div? a b = some w ∧ w.toInt = a.toInt.tdiv b.toInt
  := by
  have hne : ¬b = 0 := by
    rintro rfl
    cases hb
  have hlow := a.le_toInt
  have hhigh := a.toInt_lt
  have hsize := Int.natAbs_tdiv_le_natAbs a.toInt b.toInt
  rw [div?, if_neg hne]
  apply exists_ofInt?
  · omega
  · rcases le_total 0 a.toInt with hnonneg | hnonpos
    · omega
    · have hquotient := Int.tdiv_nonneg (neg_nonneg.mpr hnonpos) (le_of_lt hb)
      rw [Int.neg_tdiv] at hquotient
      omega

/-- The remainder by a positive word. -/
theorem exists_rem? (a : Int64) {b : Int64} (hb : 0 < b.toInt) :
  ∃ w : Int64, rem? a b = some w ∧ w.toInt = a.toInt.tmod b.toInt
  := by
  obtain ⟨q, hq, -⟩ := exists_div? a hb
  have hlow := Int.lt_tmod_of_pos a.toInt hb
  have hhigh := Int.tmod_lt_of_pos a.toInt hb
  have hrange := b.toInt_lt
  rw [rem?, hq]
  apply exists_ofInt? (by omega) (by omega)

end SignedWord

/-! ### Casts -/

/-- A number with a natural value that fits into a word is cast to it. -/
theorem HasValue.toUInt64 {x : Float} {n : Nat} (h : HasValue x n) (hn : n < 2 ^ 64) :
  x.toUInt64.toNat = n
  := by
  rcases Nat.eq_zero_or_pos n with rfl | hpos
  · obtain ⟨negative, hx⟩ := h
    rw [Nat.cast_zero, neg_zero, ite_self] at hx
    change (UnpackedFloat.toUInt64 x.toModel.unpack).toNat = 0
    rw [Reading.unpack_toModel hx.ofFloat_eq_zero]
    rfl
  · rw [(h.hasSize (by exact_mod_cast hpos)).toUInt64 (by exact_mod_cast hn), Nat.floor_natCast]

/-- A word with at most fifty-three significant bits is cast to the number with its value. -/
theorem hasValue_toFloat {w : UInt64} (h : FitsMantissa w.toNat) :
  HasValue w.toFloat w.toNat
  := by
  have hvalue := (h.hasMagnitude w.toNat_lt).hasValue
  rw [floatOfNat, UInt64.ofNat_toNat] at hvalue
  apply hvalue

end Calculator
