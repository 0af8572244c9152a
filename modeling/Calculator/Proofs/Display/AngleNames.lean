import Calculator.Proofs.Display.Integers

/-!
# The names of angles

The display of a number is followed by the name of an angle exactly if the number is near to one of
the angles of its mode that have a name, and the name is then that of this angle
(`annotatedDisplay_iff`).

* What an angle is called can be read off the text of the display (`angleName?_eq_nameOfText?`):
  the text of another form, or of a decimal, is not the text of an angle with a name
  (`mem_namedForms_of_render_eq`).
* The display of a common angle is the angle's, whichever table it is found in, with the exception
  of `0°`, which is shown as zero; its name is the same (`angleName?_of_mem_commonAngles`).
* A number is near to one entry of the table of common angles at most
  (`eq_of_isNear_commonAngles`), so that the order of the table does not matter
  (`closeForm?_eq_some_iff`).
-/

namespace Calculator

open Float.Model Float.Model.UnpackedFloat
open Text (IsAscii)

/-! ### Texts -/

/-- The texts of the angles that have a name. -/
def namedTexts : List (String × String) := [
  ("0", "zero angle"), ("0°", "zero angle"), ("π/2", "right angle"), ("90°", "right angle"),
  ("π", "straight angle"), ("180°", "straight angle"), ("2π", "full circle"),
  ("360°", "full circle"), ("π/4", "half right angle"), ("45°", "half right angle"),
  ("π/3", "acute angle"), ("60°", "acute angle"), ("π/6", "acute angle"), ("30°", "acute angle")]

/-- What the angle with a text is called. -/
def nameOfText? (text : String) : Option String :=
  namedTexts.lookup text

/-- There is a digit in the text of an integer. -/
theorem any_isDigit_toString (n : Int) :
  (toString n).toList.any Char.isDigit = true
  := by
  have hnat : ∀ m : Nat, (toString m).toList.any Char.isDigit = true := by
    intro m
    obtain ⟨d, hd⟩ := List.exists_mem_of_ne_nil _ (Nat.toDigits_ne_nil : digits m ≠ [])
    rw [toList_toString_nat, List.any_eq_true]
    use d, hd, isDigit_of_mem_digits hd
  cases n with
  | ofNat m => apply hnat
  | negSucc m =>
    change ("-" ++ toString (m + 1)).toList.any Char.isDigit = true
    rw [String.toList_append, List.any_append, hnat, Bool.or_true]

namespace Form

/-- Different factors of π have different texts. -/
theorem factorText_inj {p p' : Int} (h : factorText p = factorText p') :
  p = p'
  := by
  have hsign : ∀ n : Int, ∀ sign ∈ ["", "-"], toString n ≠ sign := by
    rintro n sign hmem rfl
    have hnone : ∀ sign ∈ ["", "-"], sign.toList.any Char.isDigit = false := by decide
    cases (hnone _ hmem).symm.trans (any_isDigit_toString n)
  rw [factorText, factorText] at h
  split_ifs at h with hone hone' hminus' hminus hone' hminus' hone' hminus'
  · rw [hone, hone']
  · apply absurd h (by decide)
  · cases hsign _ _ (by decide) h.symm
  · apply absurd h (by decide)
  · rw [hminus, hminus']
  · cases hsign _ _ (by decide) h.symm
  · cases hsign _ _ (by decide) h
  · cases hsign _ _ (by decide) h
  · apply Int.repr_inj.mp h

/-- Different denominators have different texts. -/
theorem denominatorText_inj {q q' : Nat} (h : denominatorText q = denominatorText q') :
  q = q'
  := by
  have hslash : ∀ n : Nat, "/" ++ toString n ≠ "" := by
    intro n heq
    apply absurd (String.append_eq_empty_iff.mp heq).1 (by decide)
  rw [denominatorText, denominatorText] at h
  split_ifs at h with hone hone' hone'
  · rw [hone, hone']
  · cases hslash _ h.symm
  · cases hslash _ h
  · apply Nat.repr_inj.mp ((String.append_right_inj _).mp h)

/-- Different multiples of π other than zero have different texts. -/
theorem render_piMultiple_inj {p p' : Int} {q q' : Nat} (hp : p ≠ 0) (hp' : p' ≠ 0)
    (h : (piMultiple p q).render = (piMultiple p' q').render) :
  p = p' ∧ q = q'
  := by
  have hfactor : 'π' ∉ (factorText p).toList := (IsAscii.factorText p).notMem (by decide)
  have hdenominator : 'π' ∉ (denominatorText q).toList :=
    (IsAscii.denominatorText q).notMem (by decide)
  rw [render, render, if_neg hp, if_neg hp'] at h
  have hlist := congrArg String.toList h
  rw [String.toList_append, String.toList_append, String.toList_append, String.toList_append,
    List.append_assoc, List.append_assoc] at hlist
  obtain ⟨hleft, -, hright⟩ :=
    (List.append_cons_inj_of_notMem hfactor hdenominator).mp hlist
  use factorText_inj (String.toList_inj.mp hleft), denominatorText_inj (String.toList_inj.mp hright)

/-- Only zero with denominator one is the fraction with the text of zero. -/
theorem eq_zero_of_render_fraction {p : Int} {q : Nat} (h : (fraction p q).render = "0") :
  p = 0 ∧ q = 1
  := by
  by_cases hq : q = 1
  · subst hq
    have hp : Int.repr p = Int.repr 0 := String.append_empty.symm.trans h
    use Int.repr_inj.mp hp
  · have hletter := slash_mem_render p hq
    rw [h] at hletter
    apply absurd hletter (by decide)

end Form

/-! ### Names by texts -/

/-- The forms of the angles that have a name. -/
def namedForms : List Form := [
  .fraction 0 1, .piMultiple 0 1, .piMultiple 1 2, .piMultiple 1 1, .piMultiple 2 1,
  .piMultiple 1 4, .piMultiple 1 3, .piMultiple 1 6, .degrees 0, .degrees 90, .degrees 180,
  .degrees 360, .degrees 45, .degrees 60, .degrees 30]

/-- A text has the name of the form with a name that has this text. -/
theorem nameOfText?_render_of_mem :
  ∀ form ∈ namedForms, nameOfText? form.render = form.angleName?
  := by
  decide

/-- A text that no form with a name has is not the text of an angle with a name. -/
theorem nameOfText?_eq_none {text : String} (h : ∀ form ∈ namedForms, text ≠ form.render) :
  nameOfText? text = none
  := by
  have hforms : ∀ entry ∈ namedTexts, ∃ form ∈ namedForms, entry.1 = form.render := by decide
  rw [nameOfText?, List.lookup_eq_none_iff]
  intro entry hentry
  obtain ⟨form, hform, heq⟩ := hforms entry hentry
  rw [heq, bne_iff_ne]
  apply h form hform

/-- Zero is the only form with a name that has an ASCII text. -/
theorem render_eq_zero_of_isAscii :
  ∀ form ∈ namedForms, IsAscii form.render → form.render = "0"
  := by
  decide

/-- A form with a name that has a π in its text is a multiple of π other than zero. -/
theorem exists_of_pi_mem_render {form : Form} (hform : form ∈ namedForms)
    (hpi : 'π' ∈ form.render.toList) :
  ∃ (p : Int) (q : Nat), p ≠ 0 ∧ form = .piMultiple p q
  := by
  cases form with
  | piMultiple p q =>
    refine ⟨p, q, ?_, rfl⟩
    intro hzero
    rw [Form.render, if_pos hzero] at hpi
    apply absurd hpi (by decide)
  | named => simp [namedForms] at hform
  | degrees | fraction | root => cases Form.pi_notMem_render (by simp) (by simp) hpi

/-- A form that is recognised and has the text of a form with a name is a form with a name. -/
theorem mem_namedForms_of_render_eq {x : Float} {mode : AngleMode} {form form' : Form}
    (h : RecognisedAs x mode form) (hform' : form' ∈ namedForms)
    (heq : form.render = form'.render) :
  form ∈ namedForms
  := by
  -- The letters of its text tell of which kind the other form is.
  cases h with
  | known hknown =>
    have hconstants : ∀ form ∈ knownForms, form.render ∈ namedForms.map Form.render →
        form ∈ namedForms := by decide +kernel
    apply hconstants form hknown
    rw [heq]
    apply List.mem_map_of_mem hform'
  | @piMultiple p q hpos hle hcoprime =>
    by_cases hp : p = 0
    · obtain rfl : q = 1 := by simpa [hp] using hcoprime
      rw [hp]
      decide
    · obtain ⟨p', q', hp', rfl⟩ := exists_of_pi_mem_render hform' (heq ▸ Form.pi_mem_render hp q)
      obtain ⟨rfl, rfl⟩ := Form.render_piMultiple_inj hp hp' heq
      apply hform'
  | @degrees n =>
    have hletter := Form.degreeSign_mem_render n
    rw [heq] at hletter
    cases form' with
    | degrees n' =>
      obtain rfl := Int.repr_inj.mp ((String.append_left_inj _).mp heq)
      apply hform'
    | named => simp [namedForms] at hform'
    | piMultiple | fraction | root =>
      cases Form.degreeSign_notMem_render (by simp) (by simp) hletter
  | @fraction _ p q =>
    have hzero := render_eq_zero_of_isAscii form' hform' (heq ▸ Form.isAscii_fraction p q)
    obtain ⟨rfl, rfl⟩ := Form.eq_zero_of_render_fraction (heq.trans hzero)
    decide
  | root =>
    have hletters : ∀ form ∈ namedForms, '√' ∉ form.render.toList := by decide
    cases hletters form' hform' (heq ▸ Form.radical_mem_render _ _)

/-- A form with a name is zero, or one of the forms of the angles that have a name. -/
theorem Form.eq_zero_or_mem_namedForms {form : Form} (h : form.angleName? ≠ none) :
  (∃ q : Nat, form = .fraction 0 q ∨ form = .piMultiple 0 q) ∨ form ∈ namedForms
  := by
  rw [angleName?.eq_def] at h
  split at h
  case h_1 q =>
    left
    use q, Or.inl rfl
  case h_2 q =>
    left
    use q, Or.inr rfl
  case h_16 => cases h rfl
  all_goals
    right
    decide

/-- A form that is recognised and has a name is one of the forms of the angles that have a name. -/
theorem mem_namedForms_of_angleName? {x : Float} {mode : AngleMode} {form : Form}
    (h : RecognisedAs x mode form) (hname : form.angleName? ≠ none) :
  form ∈ namedForms
  := by
  by_cases hknown : form ∈ knownForms
  · have hconstants : ∀ form ∈ knownForms, form.angleName? ≠ none → form ∈ namedForms := by
      decide +kernel
    apply hconstants form hknown hname
  · rcases Form.eq_zero_or_mem_namedForms hname with ⟨q, rfl | rfl⟩ | hmem
    · cases h with
      | known hmem => cases hknown hmem
      | fraction hsimple =>
        obtain rfl : q = 1 := by simpa using hsimple.coprime
        decide
    · cases h with
      | known hmem => cases hknown hmem
      | piMultiple hpos hle hcoprime =>
        obtain rfl : q = 1 := by simpa using hcoprime
        decide
    · apply hmem

/-- The name of what is recognised can be read off its text. -/
theorem RecognisedAs.angleName?_eq {x : Float} {mode : AngleMode} {form : Form}
    (h : RecognisedAs x mode form) :
  form.angleName? = nameOfText? form.render
  := by
  by_cases hmem : form ∈ namedForms
  · rw [nameOfText?_render_of_mem form hmem]
  · rw [nameOfText?_eq_none fun form' hform' heq => hmem (mem_namedForms_of_render_eq h hform' heq)]
    by_contra hname
    apply hmem (mem_namedForms_of_angleName? h hname)

/-! ### Decimals -/

/-- Zero taken from a finite number leaves it as it is. -/
theorem HasValue.sub_zero {x : Float} {v : ℚ} (h : HasValue x v) :
  HasValue (x - floatOfInt 0) v
  := by
  obtain ⟨negative, m, e, hread, hv⟩ := h
  refine ⟨negative, m, e, ?_, hv⟩
  have hsub : (unpackedOf negative m e).sub Format.binary64 (unpackedOf false 0 (-1074))
      = unpackedOf negative m e := by
    rw [unpackedOf, unpackedOf]
    split
    · rfl
    · cases negative <;> rfl
  have hpack := Reading.ofFloat_pack negative (Reading.isCanonical_of_ofFloat hread)
  rw [← hsub, ← Reading.unpack_toModel hread, ← Reading.unpack_toModel ofFloat_floatOfInt_zero]
    at hpack
  apply hpack

/-- A number is near to zero exactly if its exact size is below the tolerance. -/
theorem HasValue.isNear_zero_iff {x : Float} {v : ℚ} (h : HasValue x v) :
  isNear x (floatOfInt 0) = true ↔ |v| < 1 / 10 ^ 10
  := by
  rw [isNear, decide_eq_true_eq, h.sub_zero.abs_lt_tolerance_iff]

/-- A number that is near to none of the constants that are tried first is not written as zero. -/
theorem decimalText_ne_zero {x : Float} (hnone : closeForm? knownForms x = none) :
  decimalText x ≠ "0"
  := by
  intro htext
  have hzero : ¬isNear x (floatOfInt 0) = true := by
    obtain ⟨hmem, hvalue⟩ := mem_knownForms_of_mem_ownConstants 0 (by decide)
    rw [← hvalue]
    apply List.find?_eq_none.mp hnone _ hmem
  rcases exists_hasValue_or_all_isIntegerLetter_eq_false x with ⟨v, hx⟩ | hletter
  · rw [hx.isNear_zero_iff, not_lt] at hzero
    cases hwhole : whole? x with
    | none =>
      have hpoint := point_mem_decimalText hx hzero hwhole
      rw [htext] at hpoint
      apply absurd hpoint (by decide)
    | some k =>
      rw [hx.unique (whole?_eq_some_iff.mp hwhole).1] at hzero
      have hne : k ≠ 0 := by
        rintro rfl
        norm_num at hzero
      have hone : 1 ≤ |(k : ℚ)| := by
        exact_mod_cast Int.one_le_abs hne
      rw [decimalText_of_whole? hone hwhole] at htext
      have hmin : min k largestInteger = 0 := Int.repr_inj.mp htext
      have hlargest : largestInteger = 2 ^ 63 - 1 := rfl
      omega
  · rw [htext] at hletter
    apply absurd hletter (by decide)

/-- What the angle is called that a number is displayed as can be read off the display. -/
theorem angleName?_eq_nameOfText? (mode : AngleMode) (x : Float) :
  angleName? mode x = nameOfText? (display mode x)
  := by
  rw [angleName?, display]
  cases hform : recognise mode x with
  | some form => apply (recognisedAs_of_recognise hform).angleName?_eq
  | none =>
    symm
    apply nameOfText?_eq_none
    intro form hmem htext
    have hzero := render_eq_zero_of_isAscii form hmem (htext ▸ isAscii_decimalText x)
    simp only [recognise, Option.orElse_eq_none] at hform
    apply decimalText_ne_zero hform.1 (htext.trans hzero)

/-! ### Common angles -/

/-- A common angle to which a number is near is found as its angle. -/
theorem angle?_eq_some {mode : AngleMode} {x : Float} {form : Form}
    (hform : form ∈ commonAngles mode) (hx : isNear x form.value = true) :
  angle? mode x = some form
  := by
  cases mode with
  | radians =>
    have hsimple := isSimpleMultiple_of_mem_commonAngles form hform
    rw [angle?_radians]
    cases form with
    | piMultiple p q => apply multiple?_eq_some hsimple hx
    | named | degrees | fraction | root => cases hsimple
  | degrees =>
    obtain ⟨n, hn, rfl⟩ := exists_of_mem_commonAngles hform
    rw [angle?_degrees]
    apply wholeDegrees?_eq_some hn hx

/-- A number is near to one common angle of a mode at most. -/
theorem eq_of_isNear_commonAngles {mode : AngleMode} {x : Float} {form form' : Form}
    (hform : form ∈ commonAngles mode) (hx : isNear x form.value = true)
    (hform' : form' ∈ commonAngles mode) (hx' : isNear x form'.value = true) :
  form = form'
  := Option.some.inj ((angle?_eq_some hform hx).symm.trans (angle?_eq_some hform' hx'))

/-- In a table of the common angles of a mode, whatever its order, the common angle is found to
which a number is near. -/
theorem closeForm?_eq_some_iff {mode : AngleMode} {table : List Form}
    (htable : table.Perm (commonAngles mode)) {x : Float} {form : Form} :
  closeForm? table x = some form ↔ form ∈ commonAngles mode ∧ isNear x form.value = true
  := by
  constructor
  · intro h
    use htable.mem_iff.mp (List.mem_of_find?_eq_some h), isNear_of_closeForm? h
  · rintro ⟨hform, hx⟩
    cases h : closeForm? table x with
    | none => cases List.find?_eq_none.mp h form (htable.mem_iff.mpr hform) hx
    | some form' =>
      have hform' := htable.mem_iff.mp (List.mem_of_find?_eq_some h)
      rw [eq_of_isNear_commonAngles hform' (isNear_of_closeForm? h) hform hx]

/-- A number that is near to a common angle is called what the angle is called. -/
theorem angleName?_of_mem_commonAngles {mode : AngleMode} {x : Float} {form : Form}
    (hform : form ∈ commonAngles mode) (hx : isNear x form.value = true) :
  angleName? mode x = form.angleName?
  := by
  have hnames : ∀ mode : AngleMode, ∀ form ∈ commonAngles mode,
      nameOfText? form.render = form.angleName? := by
    rintro (_ | _) <;> decide
  rw [angleName?_eq_nameOfText?, ← hnames mode form hform]
  cases mode with
  | radians =>
    have hsimple := isSimpleMultiple_of_mem_commonAngles form hform
    cases form with
    | piMultiple p q => rw [display_radians hsimple hx, Form.render_piMultiple]
    | named | degrees | fraction | root => cases hsimple
  | degrees =>
    obtain ⟨n, hn, rfl⟩ := exists_of_mem_commonAngles hform
    by_cases hown : n ∈ ownConstants
    · -- Zero degrees have the name of zero, although they are shown as a number.
      have hzero : ∀ n ∈ ownConstants, Form.degrees n ∈ commonAngles .degrees →
          nameOfText? (toString n) = nameOfText? (Form.degrees n).render := by decide
      rw [display_of_mem_ownConstants hown hx]
      apply hzero n hown hform
    · rw [display_of_isNear_degrees hown hn hx]
      rfl

/-! ### The display -/

/-- The angles of a mode that have a name, as numbers. -/
def namedAngles : AngleMode → List (Float × String)
  | .radians => [
    (0.0, "zero angle"), (pi / 6.0, "acute angle"), (pi / 4.0, "half right angle"),
    (pi / 3.0, "acute angle"), (pi / 2.0, "right angle"), (pi, "straight angle"),
    (2.0 * pi, "full circle")]
  | .degrees => [
    (0.0, "zero angle"), (30.0, "acute angle"), (45.0, "half right angle"), (60.0, "acute angle"),
    (90.0, "right angle"), (180.0, "straight angle"), (360.0, "full circle")]

/-- The angles with a name are the common angles that have one. -/
theorem mem_namedAngles_iff {mode : AngleMode} {a : Float} {name : String} :
  (a, name) ∈ namedAngles mode ↔
    ∃ form ∈ commonAngles mode, form.value = a ∧ form.angleName? = some name
  := by
  have htable : namedAngles mode = (commonAngles mode).filterMap fun form =>
      form.angleName?.map fun name => (form.value, name) := by
    cases mode <;> decide +kernel
  rw [htable, List.mem_filterMap]
  simp [and_comm]

/-- The name that is shown is that of the angle with a name to which the number is near. -/
theorem shownName?_eq_some_iff {mode : AngleMode} {x : Float} {name : String} :
  (if isCommonAngle mode x then angleName? mode x else none) = some name ↔
    ∃ a : Float, (a, name) ∈ namedAngles mode ∧ isNear x a = true
  := by
  rw [Option.ite_none_right_eq_some]
  constructor
  · rintro ⟨hcommon, hname⟩
    obtain ⟨form, hform⟩ := Option.isSome_iff_exists.mp hcommon
    obtain ⟨hmem, hx⟩ := (closeForm?_eq_some_iff (.refl _)).mp hform
    rw [angleName?_of_mem_commonAngles hmem hx] at hname
    use form.value, mem_namedAngles_iff.mpr ⟨form, hmem, rfl, hname⟩, hx
  · rintro ⟨a, ha, hx⟩
    obtain ⟨form, hmem, rfl, hname⟩ := mem_namedAngles_iff.mp ha
    constructor
    · rw [isCommonAngle, (closeForm?_eq_some_iff (.refl _)).mpr ⟨hmem, hx⟩]
      rfl
    · rw [angleName?_of_mem_commonAngles hmem hx, hname]

/-- The display of a number is followed by a name exactly if the number is near to an angle of the
mode that has this name, and nothing follows it otherwise.  A number is near to one entry of the
table of common angles at most, so that the order of the table does not matter. -/
theorem annotatedDisplay_iff (mode : AngleMode) (x : Float) :
  (∀ name : String, annotatedDisplay mode x = display mode x ++ " (" ++ name ++ ")" ↔
    ∃ a : Float, (a, name) ∈ namedAngles mode ∧ isNear x a = true) ∧
  ((¬∃ (a : Float) (name : String), (a, name) ∈ namedAngles mode ∧ isNear x a = true) →
    annotatedDisplay mode x = display mode x) ∧
  (∀ form ∈ commonAngles mode, ∀ form' ∈ commonAngles mode, isNear x form.value = true →
    isNear x form'.value = true → form = form') ∧
  ∀ table : List Form, table.Perm (commonAngles mode) →
    closeForm? table x = closeForm? (commonAngles mode) x
  := by
  refine ⟨?_, ?_, ?_, ?_⟩
  · intro name
    rw [← shownName?_eq_some_iff, annotatedDisplay]
    cases (if isCommonAngle mode x then angleName? mode x else none) with
    | none =>
      constructor
      · intro htext
        have hlength := congrArg String.length htext
        simp only [String.length_append] at hlength
        have hone : " (".length = 2 := rfl
        omega
      · intro hname
        cases hname
    | some name' =>
      rw [Option.some.injEq, String.append_left_inj, String.append_right_inj]
  · intro hnone
    rw [annotatedDisplay]
    cases hname : (if isCommonAngle mode x then angleName? mode x else none) with
    | none => rfl
    | some name =>
      obtain ⟨a, ha⟩ := shownName?_eq_some_iff.mp hname
      cases hnone ⟨a, name, ha⟩
  · intro form hform form' hform' hx hx'
    apply eq_of_isNear_commonAngles hform hx hform' hx'
  · intro table htable
    ext form
    rw [closeForm?_eq_some_iff htable, closeForm?_eq_some_iff (.refl _)]

/-- A number that is nearly π has a name as an angle in radians only. -/
theorem annotatedDisplay_iff_pi :
  annotatedDisplay .radians 3.14159265358
      = display .radians 3.14159265358 ++ " (" ++ "straight angle" ++ ")" ∧
    annotatedDisplay .degrees 3.14159265358 = display .degrees 3.14159265358
  := by
  have hradians : (pi, "straight angle") ∈ namedAngles .radians := by simp [namedAngles]
  have hdegrees : ∀ angle ∈ namedAngles .degrees, ¬isNear 3.14159265358 angle.1 = true := by
    decide +kernel
  constructor
  · apply ((annotatedDisplay_iff .radians 3.14159265358).1 "straight angle").mpr
    use pi, hradians
    decide +kernel
  · apply (annotatedDisplay_iff .degrees 3.14159265358).2.1
    rintro ⟨a, name, hmem, hx⟩
    apply hdegrees _ hmem hx

-- In degrees it is shown as π, too, although this is not an angle there.
example :
    annotatedDisplay .radians 3.14159265358 = "π (straight angle)" ∧
      annotatedDisplay .degrees 3.14159265358 = "π" := by
  decide +kernel

end Calculator
