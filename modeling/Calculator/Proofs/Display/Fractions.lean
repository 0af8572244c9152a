import Calculator.Proofs.Display.Candidates
import Calculator.Proofs.Number.Word

/-!
# The search for fractions

The search for fractions finds the fraction in lowest terms to which a number is near, if there is
one (`fraction?_exact`).

* `lowest_eq_of_isNear_fraction`: whatever numerator and denominator a number is near to, they are
  that fraction before a common divisor is taken out.  So it does not matter that the denominators
  are tried in ascending order, and that the search starts with two.
* `exists_lowest?`: the numerators and denominators are words with a sign, and nothing that is done
  with them overflows or divides by zero.
-/

namespace Calculator

/-! ### Words -/

namespace SignedWord

/-- A remainder is smaller than the divisor. -/
theorem natAbs_lt_of_rem? {a b rest : Int64} (h : rem? a b = some rest) :
  rest.toInt.natAbs < b.toInt.natAbs
  := by
  obtain ⟨quotient, hquotient, hrest⟩ := Option.bind_eq_some_iff.mp h
  have hne : b.toInt ≠ 0 := by
    intro hzero
    rw [div?, if_pos (Int64.toInt_inj.mp hzero)] at hquotient
    cases hquotient
  rw [ofInt?_eq_some_iff.mp hrest, Int.natAbs_tmod]
  apply Nat.mod_lt
  apply Int.natAbs_pos.mpr hne

/-- The recursion of Euclid, on words with a sign. -/
def gcd? (a b : Int64) : Option Int64 :=
  if b = 0 then some a
  else
    match _hrest : rem? a b with
    | some rest => gcd? b rest
    | none => none
termination_by b.toInt.natAbs
decreasing_by apply natAbs_lt_of_rem? _hrest

/-- A fraction in lowest terms, on words with a sign. -/
def lowest? (a b : Int64) : Option (Int64 × Int64) := do
  let size ← abs? a
  let divisor ← gcd? size b
  let numerator ← div? a divisor
  let denominator ← div? b divisor
  return (numerator, denominator)

/-- The search for fractions, on words with a sign. -/
def fraction? (x : Float) : Option (Option Form) :=
  (List.range' 2 15).findSomeM? fun d =>
    match nearestNumerator? .fraction x (x * floatOfNat d) d with
    | none => some none
    | some n => do
      let a ← ofInt? n
      let b ← ofInt? d
      let (numerator, denominator) ← lowest? a b
      return some (.fraction numerator.toInt denominator.toInt.toNat)

/-- The recursion of Euclid on words that are not negative ends without an overflow or a division
by zero, at the greatest common divisor. -/
theorem exists_gcd? {a b : Int64} (ha : 0 ≤ a.toInt) (hb : 0 ≤ b.toInt) :
  ∃ g : Int64, gcd? a b = some g ∧ g.toInt = a.toInt.natAbs.gcd b.toInt.natAbs
  := by
  induction hn : b.toInt.natAbs using Nat.strong_induction_on generalizing a b with
  | h n ih =>
    subst hn
    rw [gcd?]
    rcases hb.eq_or_lt with hzero | hpos
    · use a
      rw [if_pos (Int64.toInt_inj.mp hzero.symm), ← hzero, Int.natAbs_zero, Nat.gcd_zero_right,
        Int.natAbs_of_nonneg ha]
      use rfl
    · have hne : ¬b = 0 := by
        rintro rfl
        cases hpos
      obtain ⟨rest, hrest, hvalue⟩ := exists_rem? a hpos
      have hnonneg : 0 ≤ rest.toInt := by
        rw [hvalue]
        apply Int.tmod_nonneg _ ha
      obtain ⟨g, hg, hdivisor⟩ := ih _ (natAbs_lt_of_rem? hrest) hb hnonneg rfl
      rw [if_neg hne]
      use g
      constructor
      · split
        · rename_i rest' hrest'
          cases hrest.symm.trans hrest'
          apply hg
        · rename_i hrest'
          cases hrest.symm.trans hrest'
      · rw [hdivisor, hvalue, Int.natAbs_tmod, Nat.gcd_comm, ← Nat.gcd_rec, Nat.gcd_comm]

/-- A fraction has lowest terms on words, and they are the exact ones. -/
theorem exists_lowest? {a b : Int64} {d : Nat} (ha : a.toInt.natAbs ≤ 2147483647)
    (hb : b.toInt = d) (hd : 0 < d) :
  ∃ p q : Int64, lowest? a b = some (p, q) ∧ (p.toInt, q.toInt.toNat) = Form.lowest a.toInt d
  := by
  obtain ⟨size, hsize, hsizeValue⟩ := exists_ofInt? (n := a.toInt.natAbs) (by omega) (by omega)
  obtain ⟨g, hg, hvalue⟩ := exists_gcd? (a := size) (b := b) (by omega) (by omega)
  rw [hsizeValue, hb, Int.natAbs_natCast, Int.natAbs_natCast] at hvalue
  have hpos : 0 < g.toInt := by
    rw [hvalue]
    exact_mod_cast Nat.gcd_pos_of_pos_right _ hd
  have hdvd : ((a.toInt.natAbs.gcd d : Nat) : Int) ∣ a.toInt :=
    Int.natCast_dvd.mpr (Nat.gcd_dvd_left _ _)
  obtain ⟨p, hp, hpvalue⟩ := exists_div? a hpos
  obtain ⟨q, hq, hqvalue⟩ := exists_div? b hpos
  refine ⟨p, q, ?_, ?_⟩
  · rw [lowest?, abs?, hsize, Option.bind_eq_bind, Option.bind_some, hg, Option.bind_some, hp,
      Option.bind_some, hq]
    rfl
  · rw [hvalue, Int.tdiv_eq_ediv_of_dvd hdvd] at hpvalue
    rw [hvalue, hb, ← Int.ofNat_tdiv] at hqvalue
    rw [hpvalue, hqvalue, Int.toNat_natCast, Form.lowest]

end SignedWord

/-! ### The search -/

/-- The numerator over a denominator that is tried is found, if the number is near to the
fraction. -/
theorem nearestNumerator?_fraction {x : Float} {n p : Int} {d q : Nat}
    (hx : IsWithin (1 / 2 ^ 16) x (p / q)) (hq : 1 ≤ q) (hquotient : n * q = p * d) (hd : 1 ≤ d)
    (hle : d ≤ 16) (hn : n.natAbs ≤ 2147483647)
    (hnear : isNear x (Form.fraction n d).value = true) :
  nearestNumerator? .fraction x (x * floatOfNat d) d = some n
  := by
  have hone : (1 : ℚ) ≤ d := by exact_mod_cast hd
  have hsixteen : (d : ℚ) ≤ (16 : Nat) := by exact_mod_cast hle
  have hsize := abs_cast_le hn
  push_cast at hsixteen
  rw [← div_mul_eq_of_mul_eq_mul hq hquotient] at hsize
  have hscaled := hx.mul (hasSize_floatOfNat hd (by omega)) hone (by linarith) (by linarith)
  rw [div_mul_eq_of_mul_eq_mul hq hquotient] at hscaled
  apply nearestNumerator?_eq_some hscaled (by linarith) hn hnear

/-- There is only one fraction in lowest terms with a small denominator to which a number is
near. -/
theorem lowest_eq_of_isNear_fraction {x : Float} {n p : Int} {d q : Nat} (h : IsSimple 16 p q)
    (hx : isNear x (Form.fraction p q).value = true) (hn : n.natAbs ≤ 2147483647) (hd : 1 ≤ d)
    (hle : d ≤ 16) (hnear : isNear x (Form.fraction n d).value = true) :
  Form.lowest n d = (p, q)
  := by
  have hp := isWithin_of_isNear_fraction h.bound h.pos h.le hx
  have hn := isWithin_of_isNear_fraction hn hd hle hnear
  apply Form.lowest_eq _ h.coprime h.pos hd
  apply mul_eq_mul_of_abs_sub_le hd hle h.pos h.le
  apply (hn.abs_sub_le hp).trans
  norm_num

/-- A fraction to which a number is near is found. -/
theorem fraction?_eq_some {x : Float} {p : Int} {q : Nat} (h : IsSimple 16 p q)
    (hx : isNear x (Form.fraction p q).value = true) :
  fraction? x = some (.fraction p q)
  := by
  have hwithin := isWithin_of_isNear_fraction h.bound h.pos h.le hx
  apply findSome?_eq_some_of_isSimple h (by decide) fun _ _ => rfl
  · intro n d k hd hle hn hquotient _
    have hform : Form.fractionOf n d = .fraction p q := by
      rw [Form.fractionOf, Form.lowest_eq hquotient h.coprime h.pos hd]
    rw [← hform, Form.value_fractionOf (by omega) hd (by omega)] at hx
    apply nearestNumerator?_fraction hwithin h.pos hquotient hd hle hn hx
  · intro n d hd hle hn hnear
    apply lowest_eq_of_isNear_fraction h hx hn hd hle hnear

/-- A fraction that is found is in lowest terms, and the number is near to it. -/
theorem exists_of_fraction? {x : Float} {form : Form} (h : fraction? x = some form) :
  ∃ (p : Int) (q : Nat), IsSimple 16 p q ∧ isNear x (Form.fraction p q).value = true ∧
    form = .fraction p q
  := by
  have hnear := isNear_of_fraction? h
  obtain ⟨d, hd, hform⟩ := List.exists_of_findSome?_eq_some h
  obtain ⟨n, hn, rfl⟩ := Option.map_eq_some_iff.mp hform
  refine ⟨_, _, isSimple_lowest 16 (natAbs_le_of_nearestNumerator? hn) hd, hnear, rfl⟩

/-! ### The search on words -/

/-- A search whose steps all have results is the search for these results. -/
theorem findSomeM?_eq_some {α β : Type} {f : α → Option (Option β)} {g : α → Option β} {l : List α}
    (h : ∀ a ∈ l, f a = some (g a)) :
  l.findSomeM? f = some (l.findSome? g)
  := by
  induction l with
  | nil => rfl
  | cons a l ih =>
    rw [List.forall_mem_cons] at h
    rw [List.findSomeM?, List.findSome?, h.1, Option.bind_eq_bind, Option.bind_some]
    cases g a with
    | none => apply ih h.2
    | some b => rfl

/-- The search on words neither overflows nor divides by zero, and its result is that of the
search. -/
theorem SignedWord.fraction?_eq (x : Float) :
  SignedWord.fraction? x = some (Calculator.fraction? x)
  := by
  apply findSomeM?_eq_some
  intro d hd
  obtain ⟨hlow, hhigh⟩ := List.mem_range'_1.mp hd
  cases hnumerator : nearestNumerator? .fraction x (x * floatOfNat d) d with
  | none => rfl
  | some n =>
    have hn := natAbs_le_of_nearestNumerator? hnumerator
    obtain ⟨a, ha, havalue⟩ := exists_ofInt? (n := n) (by omega) (by omega)
    obtain ⟨b, hb, hbvalue⟩ := exists_ofInt? (n := d) (by omega) (by omega)
    obtain ⟨p, q, hlowest, hvalue⟩ := exists_lowest? (havalue ▸ hn) hbvalue (by omega)
    have hform : Form.fractionOf n d = .fraction p.toInt q.toInt.toNat := by
      rw [Form.fractionOf, ← havalue, ← hvalue]
    rw [Option.map_some, hform]
    simp only
    rw [ha, Option.bind_eq_bind, Option.bind_some, hb, Option.bind_eq_bind, Option.bind_some,
      hlowest, Option.bind_some]
    rfl

/-! ### The fraction that is found -/

/-- The search for fractions finds something exactly if a number is near to a fraction in lowest
terms with a denominator of at most sixteen; there is only one such fraction, and it is the one that
is shown.  On words the search neither overflows nor divides by zero, whatever the number is. -/
theorem fraction?_exact (x : Float) :
  ((fraction? x).isSome = true ↔
    ∃ (p : Int) (q : Nat), IsSimple 16 p q ∧ isNear x (Form.fraction p q).value = true) ∧
  (∀ (p p' : Int) (q q' : Nat),
    IsSimple 16 p q → isNear x (Form.fraction p q).value = true →
    IsSimple 16 p' q' → isNear x (Form.fraction p' q').value = true → p = p' ∧ q = q') ∧
  (∀ (p : Int) (q : Nat), IsSimple 16 p q → isNear x (Form.fraction p q).value = true →
    (fraction? x).map Form.render =
      some (if q = 1 then toString p else toString p ++ "/" ++ toString q)) ∧
  SignedWord.fraction? x = some (fraction? x)
  := by
  refine ⟨?_, ?_, ?_, SignedWord.fraction?_eq x⟩
  · constructor
    · intro hsome
      obtain ⟨form, hform⟩ := Option.isSome_iff_exists.mp hsome
      obtain ⟨p, q, hsimple, hnear, -⟩ := exists_of_fraction? hform
      use p, q, hsimple, hnear
    · rintro ⟨p, q, hsimple, hnear⟩
      rw [fraction?_eq_some hsimple hnear]
      rfl
  · intro p p' q q' hsimple hnear hsimple' hnear'
    have heq := (fraction?_eq_some hsimple hnear).symm.trans (fraction?_eq_some hsimple' hnear')
    cases heq
    use rfl
  · intro p q hsimple hnear
    rw [fraction?_eq_some hsimple hnear, Option.map_some, Form.render, Form.denominatorText]
    split
    · apply congrArg some
      apply String.append_empty
    · rw [String.append_assoc]

/-- An integer that is found as a fraction with denominator two. -/
theorem fraction?_exact_seven :
  IsSimple 16 7 1 ∧ isNear 7.00000000005 (Form.fraction 7 1).value = true ∧
    (fraction? 7.00000000005).map Form.render = some "7"
  := by
  have hsimple : IsSimple 16 7 1 := ⟨by decide, by decide, by decide, by decide, by decide⟩
  have hnear : isNear 7.00000000005 (Form.fraction 7 1).value = true := by decide +kernel
  use hsimple, hnear
  apply (fraction?_exact 7.00000000005).2.2.1 7 1 hsimple hnear

end Calculator
