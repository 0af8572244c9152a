/-!
# ASCII characters

A property of all ASCII characters is a table with 128 entries (`Text.forall_ascii`), which
covers the classes of characters that only ASCII characters belong to.  Capital letters are such
a class, and the only characters that differ from their lower case (`Text.forall_toLower`).
-/

namespace Calculator.Text

/-- What holds of the first 128 characters holds of every character below code point 128. -/
theorem forall_ascii {P : Char → Prop} (h : ∀ n : Nat, n < 128 → P (Char.ofNat n)) {c : Char}
    (hc : c.toNat < 128) :
  P c
  := by
  have hp := h c.toNat hc
  rw [Char.ofNat_toNat] at hp
  apply hp

/-- A letter of ASCII is an ASCII character. -/
theorem toNat_lt_of_isAlpha {c : Char} (hc : c.isAlpha = true) :
  c.toNat < 128
  := by
  rcases Bool.or_eq_true_iff.mp hc with hupper | hlower
  · obtain ⟨-, hle⟩ := of_decide_eq_true hupper
    apply Nat.lt_of_le_of_lt (UInt32.le_iff_toNat_le.mp hle) (by decide)
  · obtain ⟨-, hle⟩ := Bool.and_eq_true_iff.mp hlower
    apply Nat.lt_of_le_of_lt (UInt32.le_iff_toNat_le.mp (of_decide_eq_true hle)) (by decide)

/-- A digit of ASCII is an ASCII character. -/
theorem toNat_lt_of_isDigit {c : Char} (hc : c.isDigit = true) :
  c.toNat < 128
  := by
  apply Nat.lt_of_le_of_lt (Char.isDigit_iff_toNat.mp hc).2 (by decide)

/-- What holds of every capital letter and its lower case, and of every character and itself,
holds of every character and its lower case. -/
theorem forall_toLower {P : Char → Char → Prop} (hself : ∀ c : Char, P c c)
    (hupper : ∀ n : Nat, n < 128 → (Char.ofNat n).isUpper = true →
      P (Char.ofNat n) (Char.ofNat n).toLower)
    (c : Char) :
  P c c.toLower
  := by
  by_cases hc : c.isUpper = true
  · have hascii : c.toNat < 128 := toNat_lt_of_isAlpha (Bool.or_eq_true_iff.mpr (Or.inl hc))
    apply forall_ascii (P := fun c => c.isUpper = true → P c c.toLower) hupper hascii hc
  · have hlower : c.toLower = c := dif_neg fun h => hc (decide_eq_true h)
    rw [hlower]
    apply hself

end Calculator.Text
