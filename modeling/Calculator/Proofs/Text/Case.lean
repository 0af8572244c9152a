import Calculator.Operation.Unary
import Calculator.Proofs.Text.Ascii
import Mathlib

/-!
# The case of ASCII texts

Below code point 128 the full upper case is that of the letters `a` to `z`, so that
changing the case of an ASCII text loses nothing that names are compared by
(`lowercase_uppercase`).  All names of functions are ASCII texts, and a text that names a
function still does so in upper case (`UnaryOp.ofName?_uppercase`).
-/

namespace Calculator

namespace Text

/-- Whether all characters of a text are ASCII. -/
def IsAscii (text : String) : Prop :=
  ∀ c ∈ text.toList, c.toNat < 128

/-- No ASCII character has several characters as its upper case. -/
theorem find?_uppercaseExpansions_ascii {c : Char} (hc : c.toNat < 128) :
  uppercaseExpansions.find? (·.1 == c.toNat) = none
  := by
  have hfirst : ∀ entry ∈ uppercaseExpansions, 128 ≤ entry.1 := by decide
  apply List.find?_eq_none.mpr
  intro entry hentry heq
  have hle := hfirst entry hentry
  rw [eq_of_beq heq] at hle
  omega

/-- The letters `a` to `z` are the only ASCII characters in a run of the table. -/
theorem find?_uppercaseRuns_ascii {c : Char} (hc : c.toNat < 128) :
  uppercaseRuns.find? (·.contains c.toNat)
    = if 97 ≤ c.toNat ∧ c.toNat ≤ 122 then some ⟨97, 122, 1, -32⟩ else none
  := by
  have hfirst : ∀ run ∈ uppercaseRuns.tail, 128 ≤ run.first := by decide +kernel
  have hnone : uppercaseRuns.tail.find? (·.contains c.toNat) = none := by
    apply List.find?_eq_none.mpr
    intro run hrun hcontains
    have hle := hfirst run hrun
    simp only [CaseRun.contains, Bool.and_eq_true, decide_eq_true_eq] at hcontains
    omega
  have hcons : uppercaseRuns = ⟨97, 122, 1, -32⟩ :: uppercaseRuns.tail := rfl
  rw [hcons, List.find?_cons, hnone]
  by_cases h : 97 ≤ c.toNat ∧ c.toNat ≤ 122
  · simp [CaseRun.contains, h, Nat.mod_one]
  · have hcontains : CaseRun.contains ⟨97, 122, 1, -32⟩ c.toNat = false := by
      simp only [CaseRun.contains, Bool.and_eq_false_iff, decide_eq_false_iff_not]
      omega
    rw [hcontains, if_neg h]

/-- The upper case of an ASCII character is a single character. -/
theorem uppercaseOf_ascii {c : Char} (hc : c.toNat < 128) :
  uppercaseOf c = [c.toUpper]
  := by
  have hshift : ∀ n : Nat, n < 128 →
      (if 97 ≤ n ∧ n ≤ 122 then [Char.ofNat ((n : Int) + -32).toNat] else [Char.ofNat n])
        = [(Char.ofNat n).toUpper] := by
    decide
  have hc' := hshift c.toNat hc
  rw [Char.ofNat_toNat] at hc'
  simp only [uppercaseOf, find?_uppercaseExpansions_ascii hc, find?_uppercaseRuns_ascii hc]
  by_cases h : 97 ≤ c.toNat ∧ c.toNat ≤ 122
  · rw [if_pos h] at hc' ⊢
    apply hc'
  · rw [if_neg h] at hc' ⊢
    apply hc'

/-- A character whose lower case is ASCII is ASCII. -/
theorem toNat_lt_of_toLower {c : Char} (h : c.toLower.toNat < 128) :
  c.toNat < 128
  := by
  by_cases hupper : c.isUpper = true
  · apply toNat_lt_of_isAlpha (Bool.or_eq_true_iff.mpr (Or.inl hupper))
  · rw [Char.toLower_eq_of_not_isUpper hupper] at h
    apply h

/-- A text whose lower case is ASCII is ASCII. -/
theorem IsAscii.of_lowercase {text : String} (h : IsAscii (lowercase text)) :
  IsAscii text
  := by
  intro c hc
  apply toNat_lt_of_toLower
  apply h
  rw [lowercase, String.toList_ofList]
  apply List.mem_map_of_mem hc

/-- The upper case of an ASCII text, character by character. -/
theorem toList_uppercase {text : String} (h : IsAscii text) :
  (uppercase text).toList = text.toList.map Char.toUpper
  := by
  rw [uppercase, String.toList_ofList]
  unfold IsAscii at h
  generalize text.toList = cs at h
  induction cs with
  | nil => rfl
  | cons c cs ih =>
    rw [List.flatMap_cons, uppercaseOf_ascii (h c List.mem_cons_self),
      ih (fun d hd => h d (List.mem_cons_of_mem c hd))]
    rfl

/-- The lower case of an ASCII text does not depend on the case it is in. -/
theorem lowercase_uppercase {text : String} (h : IsAscii text) :
  lowercase (uppercase text) = lowercase text
  := by
  rw [lowercase, toList_uppercase h, lowercase, List.map_map]
  congr 2
  funext c
  apply Char.toLower_toUpper_eq_toLower

end Text

namespace UnaryOp

/-- The names of functions are ASCII texts. -/
theorem isAscii_of_mem_functionNames :
  ∀ entry ∈ functionNames, ∀ c ∈ entry.1.toList, c.toNat < 128
  := by
  have hall : functionNames.all (·.1.toList.all (·.toNat < 128)) = true := by decide +kernel
  intro entry hentry c hc
  apply of_decide_eq_true
  apply List.all_eq_true.mp (List.all_eq_true.mp hall entry hentry) c hc

/-- A text that names a function is ASCII. -/
theorem isAscii_of_ofName? {text : String} {op : UnaryOp} (h : ofName? text = some op) :
  Text.IsAscii text
  := by
  obtain ⟨before, after, hnames, -⟩ := List.lookup_eq_some_iff.mp h
  apply Text.IsAscii.of_lowercase
  apply isAscii_of_mem_functionNames (Text.lowercase text, op)
  rw [hnames]
  apply List.mem_append_right before List.mem_cons_self

/-- A text that names a function names it in upper case too. -/
theorem ofName?_uppercase {text : String} {op : UnaryOp} (h : ofName? text = some op) :
  ofName? (Text.uppercase text) = some op
  := by
  rw [ofName?, Text.lowercase_uppercase (isAscii_of_ofName? h)]
  apply h

end UnaryOp

end Calculator
