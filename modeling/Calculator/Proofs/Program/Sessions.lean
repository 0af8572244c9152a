import Calculator.Evaluator
import Mathlib.Tactic.Use

/-!
# Sessions

What actions do to the evaluators of a session.  Sessions here begin without an evaluator;
`Session.initial` is the one after the action `new`.

* `Session.perform_cases`: an action adds one evaluator after the others, or it adds none and
  sets at most the mode of the evaluator that it is addressed to.
* `Session.getElem?_performAll`: after further actions an evaluator has the mode that they set
  for it last, or else the one it had.
* `Session.exists_creation`: every evaluator was created by one of the actions.
* `Session.evaluators_isolated`: so the mode of an evaluator depends on its creation and on the
  modes set for it, and its answers depend on its mode.
-/

namespace Calculator

/-- The mode that an action sets for the evaluator at a place, if it sets one. -/
def Action.modeSet? (place : Nat) : Action → Option AngleMode
  | .setMode target name => if target = place then AngleMode.ofName? name else none
  | _ => none

/-- The mode that some actions set last for the evaluator at a place, if they set one. -/
def lastModeSet? (place : Nat) (actions : List Action) : Option AngleMode :=
  (actions.filterMap (Action.modeSet? place)).getLast?

/-- The mode that is set last by an action and further actions. -/
theorem lastModeSet?_cons (place : Nat) (action : Action) (actions : List Action) :
  lastModeSet? place (action :: actions)
    = (lastModeSet? place actions).or (action.modeSet? place)
  := by
  rw [lastModeSet?, lastModeSet?]
  cases hset : action.modeSet? place with
  | none =>
    rw [List.filterMap_cons_none hset, Option.or_none]
  | some mode =>
    rw [List.filterMap_cons_some hset, List.getLast?_cons, Option.or_some]

namespace Session

/-- The session after some actions. -/
def performAll (session : Session) (actions : List Action) : Session :=
  actions.foldl (fun session action => (session.perform action).2) session

/-- The mode of the evaluator that an action creates, if it creates one: radians, the mode that
is given, or the present mode of the evaluator that is copied. -/
def creationMode? (session : Session) : Action → Option AngleMode
  | .new => some .radians
  | .newInMode mode => some mode
  | .copy source => session[source]?.map Evaluator.mode
  | _ => none

/-- Whether all evaluators of a session have the eleven constants. -/
def HasStandardConstants (session : Session) : Prop :=
  ∀ evaluator ∈ session, evaluator.constants = constants

/-! ### One action -/

/-- Setting a mode changes that of one evaluator, if there is such a mode. -/
theorem getElem?_perform_setMode (session : Session) (target : Nat) (name : String)
    (place : Nat) :
  (session.perform (.setMode target name)).2[place]?
    = session[place]?.map fun e =>
        { e with mode := ((Action.setMode target name).modeSet? place).getD e.mode }
  := by
  rw [perform, Action.modeSet?]
  cases htarget : session[target]? with
  | none =>
    by_cases heq : target = place
    · subst heq
      simp [htarget]
    · simp [heq]
  | some evaluator =>
    cases AngleMode.ofName? name with
    | none => simp
    | some mode =>
      by_cases heq : target = place
      · subst heq
        obtain ⟨hlt, hevaluator⟩ := List.getElem?_eq_some_iff.mp htarget
        simp [hlt, hevaluator]
      · simp [heq]

/-- What an action does: it creates one evaluator after the others, or it creates none and sets
at most the mode of the evaluator that it is addressed to. -/
theorem perform_cases {session : Session} (h : session.HasStandardConstants) (action : Action) :
  (∃ mode : AngleMode, session.creationMode? action = some mode ∧
    session.perform action = (.created session.length, session ++ [.mk mode])) ∨
  (session.creationMode? action = none ∧
    ∀ place : Nat, (session.perform action).2[place]?
      = session[place]?.map fun e => { e with mode := (action.modeSet? place).getD e.mode })
  := by
  cases action with
  | new =>
    left
    use .radians
    constructor <;> rfl
  | newInMode mode =>
    left
    use mode
    constructor <;> rfl
  | copy source =>
    rw [perform, creationMode?]
    cases hsource : session[source]? with
    | none =>
      right
      simp [Action.modeSet?]
    | some evaluator =>
      left
      use evaluator.mode, rfl
      have hconstants := h evaluator (List.mem_of_getElem? hsource)
      have hcopy : Evaluator.mk evaluator.mode = evaluator := by
        rw [Evaluator.mk, ← hconstants]
      rw [hcopy]
      rfl
  | setMode target name =>
    right
    use rfl
    apply getElem?_perform_setMode
  | evaluateText | evaluate | constant =>
    right
    use rfl
    simp [perform, Action.modeSet?]

/-- An action keeps the constants of all evaluators. -/
theorem HasStandardConstants.perform {session : Session} (h : session.HasStandardConstants)
    (action : Action) :
  (session.perform action).2.HasStandardConstants
  := by
  intro evaluator hmem
  rcases perform_cases h action with ⟨mode, -, hperform⟩ | ⟨-, hperform⟩
  · rw [hperform, List.mem_append, List.mem_singleton] at hmem
    rcases hmem with hmem | rfl
    · apply h evaluator hmem
    · rfl
  · obtain ⟨place, hplace⟩ := List.mem_iff_getElem?.mp hmem
    rw [hperform, Option.map_eq_some_iff] at hplace
    obtain ⟨before, hbefore, rfl⟩ := hplace
    apply h before (List.mem_of_getElem? hbefore)

/-- An action changes nothing of an evaluator but the mode that it sets for it. -/
theorem getElem?_perform {session : Session} (h : session.HasStandardConstants)
    (action : Action) {place : Nat} {evaluator : Evaluator}
    (hplace : session[place]? = some evaluator) :
  (session.perform action).2[place]?
    = some { evaluator with mode := (action.modeSet? place).getD evaluator.mode }
  := by
  rcases perform_cases h action with ⟨mode, hcreation, hperform⟩ | ⟨-, hperform⟩
  · have hset : action.modeSet? place = none := by
      cases action with
      | setMode => cases hcreation
      | _ => rfl
    obtain ⟨hlt, -⟩ := List.getElem?_eq_some_iff.mp hplace
    rw [hperform, List.getElem?_append_left hlt, hplace, hset]
    rfl
  · rw [hperform, hplace, Option.map_some]

/-! ### Several actions -/

/-- Actions keep the constants of all evaluators. -/
theorem HasStandardConstants.performAll {session : Session} (h : session.HasStandardConstants)
    (actions : List Action) :
  (session.performAll actions).HasStandardConstants
  := by
  induction actions generalizing session with
  | nil => apply h
  | cons action actions ih => apply ih (h.perform action)

/-- After some actions an evaluator has the mode that they set for it last, or else the one it
had. -/
theorem getElem?_performAll {session : Session} (h : session.HasStandardConstants)
    (actions : List Action) {place : Nat} {evaluator : Evaluator}
    (hplace : session[place]? = some evaluator) :
  (session.performAll actions)[place]?
    = some { evaluator with mode := (lastModeSet? place actions).getD evaluator.mode }
  := by
  induction actions generalizing session evaluator with
  | nil => apply hplace
  | cons action actions ih =>
    have hnext := ih (h.perform action) (getElem?_perform h action hplace)
    rw [lastModeSet?_cons, Option.getD_or]
    apply hnext

/-- An evaluator that is there after some actions was there before them or was created by one
of them. -/
theorem exists_creation {session : Session} (h : session.HasStandardConstants)
    {actions : List Action} {place : Nat} (hle : session.length ≤ place)
    (hlt : place < (session.performAll actions).length) :
  ∃ (before after : List Action) (action : Action) (mode : AngleMode),
    actions = before ++ action :: after ∧ (session.performAll before).length = place ∧
    (session.performAll before).creationMode? action = some mode
  := by
  induction actions generalizing session with
  | nil => cases Nat.not_le_of_lt hlt hle
  | cons action actions ih =>
    rcases Nat.lt_or_ge place (session.perform action).2.length with hnew | hold
    · use [], actions, action
      rcases perform_cases h action with ⟨mode, hcreation, hperform⟩ | ⟨-, hperform⟩
      · rw [hperform, List.length_append, List.length_singleton] at hnew
        use mode, rfl, Nat.le_antisymm hle (Nat.le_of_lt_succ hnew), hcreation
      · have hnone := hperform place
        rw [List.getElem?_eq_none hle, Option.map_none, List.getElem?_eq_none_iff] at hnone
        cases Nat.not_le_of_lt hnew hnone
    · obtain ⟨before, after, creator, mode, rfl, hlength, hcreation⟩ :=
        ih (h.perform action) hold hlt
      use action :: before, after, creator, mode, rfl, hlength, hcreation

/-- The session after some actions and further actions. -/
theorem performAll_append (session : Session) (before after : List Action) :
  session.performAll (before ++ after) = (session.performAll before).performAll after
  := List.foldl_append

/-- An evaluator has the mode in which it was created, or the one that was set for it last since
then, and the eleven constants.  The next action changes nothing of it but the mode that it sets
for it.  What the evaluator answers is what a new evaluator in its mode answers. -/
theorem evaluators_isolated (actions : List Action) {place : Nat} {evaluator : Evaluator}
    (h : (performAll [] actions)[place]? = some evaluator) :
  (∃ (before after : List Action) (action : Action) (mode : AngleMode),
    actions = before ++ action :: after ∧
    ((performAll [] before).perform action).1 = .created place ∧
    (performAll [] before).creationMode? action = some mode ∧
    evaluator.mode = (lastModeSet? place after).getD mode) ∧
  evaluator.constants = constants ∧
  (∀ action : Action, ((performAll [] actions).perform action).2[place]?
    = some (.mk ((action.modeSet? place).getD evaluator.mode))) ∧
  (∀ text : String, ((performAll [] actions).perform (.evaluateText place text)).1
    = .value ((Evaluator.mk evaluator.mode).evaluateText text)) ∧
  (∀ expression : Expr, ((performAll [] actions).perform (.evaluate place expression)).1
    = .value ((Evaluator.mk evaluator.mode).evaluate expression)) ∧
  ∀ name : String, ((performAll [] actions).perform (.constant place name)).1
    = .constant (constant? name)
  := by
  have hempty : HasStandardConstants [] := fun _ hmem => by cases hmem
  have hall := hempty.performAll actions
  have hconstants := hall evaluator (List.mem_of_getElem? h)
  have heq : Evaluator.mk evaluator.mode = evaluator := by
    rw [Evaluator.mk, ← hconstants]
  refine ⟨?_, hconstants, ?_, ?_, ?_, ?_⟩
  · obtain ⟨hlt, -⟩ := List.getElem?_eq_some_iff.mp h
    obtain ⟨before, after, action, mode, rfl, rfl, hcreation⟩ :=
      exists_creation hempty (Nat.zero_le place) hlt
    use before, after, action, mode, rfl
    rcases perform_cases (hempty.performAll before) action with
      ⟨mode', hcreation', hperform⟩ | ⟨hnone, -⟩
    · cases hcreation.symm.trans hcreation'
      refine ⟨by rw [hperform], hcreation, ?_⟩
      have hnext : (performAll [] (before ++ action :: after))
          = ((performAll [] before).perform action).2.performAll after :=
        performAll_append [] before (action :: after)
      have hstandard := (hempty.performAll before).perform action
      rw [hperform] at hnext hstandard
      rw [hnext, getElem?_performAll hstandard after List.getElem?_concat_length] at h
      cases h
      rfl
    · cases hnone.symm.trans hcreation
  · intro action
    rw [getElem?_perform hall action h, Evaluator.mk, hconstants]
  · intro text
    simp [perform, ask, h, heq]
  · intro expression
    simp [perform, ask, h, heq]
  · intro name
    simp [perform, ask, h, hconstants]

/-- A copy keeps the mode of its source at the time, whatever happens to the source later. -/
theorem evaluators_isolated_copy :
  let actions : List Action := [.new, .setMode 0 "Deg", .copy 0, .setMode 0 "rad",
    .setMode 1 "gradians", .evaluateText 1 "1 / 0"]
  (performAll [] actions)[1]? = some (.mk .degrees) ∧
    ((performAll [] actions).perform (.setMode 1 "RADIANS")).2[1]? = some (.mk .radians) ∧
    ((performAll [] actions).perform (.setMode 0 "degrees")).2[1]? = some (.mk .degrees) ∧
    ((performAll [] actions).perform (.evaluateText 1 "asin 1")).1
      = .value ((Evaluator.mk .degrees).evaluateText "asin 1")
  := by
  intro actions
  have hplace : (performAll [] actions)[1]? = some (.mk .degrees) := rfl
  obtain ⟨-, -, hnext, htext, -⟩ := evaluators_isolated actions hplace
  exact ⟨hplace, hnext (.setMode 1 "RADIANS"), hnext (.setMode 0 "degrees"), htext "asin 1"⟩

end Session

end Calculator
