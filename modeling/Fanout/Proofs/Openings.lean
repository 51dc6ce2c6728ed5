import Fanout.Proofs.Places
import Fanout.Proofs.Tick

/-! Runs, and the opening of a pass in them. Every world of a run is reached; a pass that is not
opened in a run has no calls, and after a pass was opened nothing changes which calls it has. -/
namespace Fanout

namespace Pass

/-- What is to be called, and under which names. -/
def plan (pass : Pass) : List (HandlerId × String) :=
  pass.calls.map fun call => (call.handler, call.name)

/-- The pass was not opened, and may be given up. -/
def Unopened (pass : Pass) : Prop :=
  pass.calls = [] ∧ pass.phase ≠ .running ∧ ∀ error, pass.phase ≠ .closed (.completed error)

variable {pass pass' : Pass} {p : PassId} {opens : Prop} {inner : Nat → PassId → Prop}
  {mark : Option Event}

theorem plan_setCall (pass : Pass) (i : Nat) (status : Status) :
    (pass.setCall i status).plan = pass.plan := by
  apply List.ext_getElem?
  intro j
  simp only [plan, List.getElem?_map, getElem?_setCall]
  split
  · cases pass.calls[j]? <;> rfl
  · rfl

theorem plan_returnPermit (pass : Pass) : pass.returnPermit.plan = pass.plan := by
  match hp : pass.permits with
  | none => rw [returnPermit_of_none hp]
  | some ⟨free, []⟩ => rw [returnPermit_of_nil hp]; rfl
  | some ⟨free, next :: others⟩ =>
    rw [returnPermit_of_cons hp]
    exact plan_setCall { pass with permits := some ⟨free, others⟩ } next .granted

theorem plan_retire (pass : Pass) (i : Nat) (error : Option CallError) :
    (pass.retire i error).plan = pass.plan :=
  (plan_returnPermit _).trans (plan_setCall pass i _)

theorem plan_giveUp (pass : Pass) (ending : Ending) : (pass.giveUp ending).plan = pass.plan := by
  simp [plan, giveUp]

/-- Only the first poll gives a pass calls, and nothing gives it others. -/
theorem Becomes.same_plan (becomes : pass.Becomes p opens inner mark pass')
    (late : opens → pass.phase ≠ .fresh) : pass'.plan = pass.plan := by
  cases becomes with
  | queue running at_position idle limited short =>
    exact plan_setCall { pass with permits := _ } _ _
  | begin running at_position admits number script cancelled =>
    exact plan_setCall { pass with permits := _ } _ _
  | takePermit running member admits => rfl
  | proceed running at_position begun after rest waits => exact plan_setCall pass _ _
  | returnCall running at_position begun error => exact plan_retire pass _ error
  | catchPanic running at_position begun payload => exact plan_retire pass _ _
  | complete running finished => rfl
  | giveUp isOpen incomplete => exact plan_giveUp pass _
  | opened allowed fresh live names settings => exact absurd fresh (late allowed)
  | refused allowed fresh payload => exact absurd fresh (late allowed)

/-- Once a pass was opened, its plan stands. -/
theorem Becomes.plan (becomes : pass.Becomes p opens inner mark pass')
    (opened : pass.phase ≠ .fresh) : pass'.phase ≠ .fresh ∧ pass'.plan = pass.plan := by
  refine ⟨?_, becomes.same_plan fun _ => opened⟩
  cases becomes with
  | queue running at_position idle limited short => exact opened
  | begin running at_position admits number script cancelled => exact opened
  | takePermit running member admits => exact opened
  | proceed running at_position begun after rest waits => exact opened
  | returnCall running at_position begun error => exact (pass.retire_same _ error).2.2 ▸ opened
  | catchPanic running at_position begun payload => exact (pass.retire_same _ _).2.2 ▸ opened
  | complete running finished => simp
  | giveUp isOpen incomplete => simp [Pass.giveUp]
  | opened allowed fresh live names settings => exact absurd fresh opened
  | refused allowed fresh payload => exact absurd fresh opened

theorem Becomes.unopened (becomes : pass.Becomes p opens inner mark pass') (closed : ¬ opens)
    (h : pass.Unopened) : pass'.Unopened := by
  obtain ⟨no_calls, not_running, incomplete⟩ := h
  cases becomes with
  | queue running at_position idle limited short => exact absurd running not_running
  | begin running at_position admits number script cancelled => exact absurd running not_running
  | takePermit running member admits => exact absurd running not_running
  | proceed running at_position begun after rest waits => exact absurd running not_running
  | returnCall running at_position begun error => exact absurd running not_running
  | catchPanic running at_position begun payload => exact absurd running not_running
  | complete running finished => exact absurd running not_running
  | giveUp isOpen other =>
    refine ⟨by simp [Pass.giveUp, no_calls], by simp [Pass.giveUp], fun error => ?_⟩
    simpa [Pass.giveUp] using other error
  | opened allowed fresh live names settings => exact absurd allowed closed
  | refused allowed fresh payload => exact absurd allowed closed

end Pass

namespace World

/-- The pass was not opened yet, if it was started. -/
def Unopened (w : World) (p : PassId) : Prop :=
  ∀ pass : Pass, w.passes[p]? = some pass → pass.Unopened

def Opened (w : World) (p : PassId) (plan : List (HandlerId × String)) : Prop :=
  ∃ pass, w.passes[p]? = some pass ∧ pass.phase ≠ .fresh ∧ pass.plan = plan

theorem PassStep.unopened {opens : PassId → Prop} {w w' : World} (step : PassStep opens w w')
    {p : PassId} (closed : ¬ opens p) (h : w.Unopened p) : w'.Unopened p := by
  intro pass found
  cases step.sight p with
  | kept same same_begins same_ends => exact h pass (same ▸ found)
  | started before after fresh no_calls named caller same_begins same_ends =>
    rw [after, Option.some.injEq] at found
    subst found
    exact ⟨no_calls, by simp [fresh], by simp [fresh]⟩
  | turned before after becomes marks =>
    rw [after, Option.some.injEq] at found
    exact found ▸ becomes.unopened closed (h _ before)

theorem Changes.unopened {w w' : World} (changes : w.Changes w') {p : PassId}
    (h : w.Unopened p) : w'.Unopened p := by
  induction changes with
  | refl => exact h
  | tail _ change ih => exact change.passStep.unopened id ih

theorem PassStep.opened {opens : PassId → Prop} {w w' : World} (step : PassStep opens w w')
    {p : PassId} {plan : List (HandlerId × String)} (h : w.Opened p plan) : w'.Opened p plan := by
  obtain ⟨pass, found, opened, rfl⟩ := h
  cases step.sight p with
  | kept same same_begins same_ends => exact ⟨pass, same.trans found, opened, rfl⟩
  | started before after fresh no_calls named caller same_begins same_ends =>
    rw [before] at found
    cases found
  | turned before after becomes marks =>
    rw [before, Option.some.injEq] at found
    subst found
    exact ⟨_, after, becomes.plan opened⟩

theorem Leads.opened {w w' : World} (leads : w.Leads w') {p : PassId}
    {plan : List (HandlerId × String)} (h : w.Opened p plan) : w'.Opened p plan := by
  induction leads with
  | refl => exact h
  | tail _ progress ih => exact progress.passStep.choose_spec.opened ih

theorem passes_summon {w started : World} {summons : Summons} {p : PassId}
    (h : w.summon none summons = .ok (p, started)) :
    w.Changes started ∧ ∃ pass, started.passes = w.passes ++ [pass] := by
  obtain ⟨d, token, named, hs⟩ := summon_eq_ok h
  cases hs
  exact ⟨.single (.start named token summons.sender summons.args (.inl rfl)), _, rfl⟩

end World

namespace Machine
open World

/-- What every machine of a run is. -/
structure Steady (m : Machine) : Prop where
  reached : m.world.Reached
  positioned : m.Positioned

theorem steady_idle (arity : Arity) (blueprints : List Blueprint) :
    (idle arity blueprints).Steady := ⟨reached_initial arity blueprints, trivial⟩

theorem Positioned.mono {m : Machine} (h : m.Positioned) {w : World}
    (keep : ∀ (q : PassId) (pass : Pass),
      m.world.passes[q]? = some pass → w.passes[q]? = some pass) : Positioned ⟨w, m.control⟩ := by
  obtain ⟨v, control⟩ := m
  cases control with
  | entering p outer => exact Stacked.mono keep h
  | choosing turn outer => exact Turning.mono keep h
  | polling frame outer => exact Turning.mono keep h
  | leaving p outer => exact Stacked.mono keep h
  | ending verdict frames => exact Concluding.mono keep h
  | settled ending => trivial

theorem Steady.refl_follows {m : Machine} (h : m.Steady) : Follows m.world m :=
  ⟨.refl, h.positioned⟩

/-- A move that is not the first poll of a pass consists of changes. -/
theorem move_follows {m : Machine} (h : m.Steady) {move : Move}
    (plain : move = .tick → ∀ p, m.isOpening p = false) : Follows m.world (m.move move) := by
  cases move with
  | tick =>
    rcases tick_follows h.reached h.positioned with ⟨p, pass, opening, -⟩ | ⟨-, follows⟩
    · rw [plain rfl p] at opening
      cases opening
    · exact follows
  | act action =>
    have deed := Deed.perform m.world action
    exact ⟨deed.changes, h.positioned.mono fun _ _ found => deed.passes.symm ▸ found⟩
  | start summons =>
    unfold Machine.move
    dsimp only
    split
    · rename_i p started hs
      obtain ⟨changes, pass, passes⟩ := passes_summon hs
      exact ⟨changes, h.positioned.mono fun _ _ found => passes ▸ getElem?_append_of_some found _⟩
    · exact h.refl_follows
  | poll p =>
    unfold Machine.move
    dsimp only
    split
    · exact ⟨(Deed.setWaking m.world _).changes, Stacked.outermost p⟩
    · exact h.refl_follows
  | suspend =>
    unfold Machine.move
    dsimp only
    split
    · exact ⟨.refl, trivial⟩
    · exact h.refl_follows
  | drop p =>
    unfold Machine.move
    dsimp only
    split
    · rename_i settled
      simp only [Bool.and_eq_true] at settled
      refine ⟨changes_abandon m.world p (givesUp_dropped m.world p), ?_⟩
      obtain ⟨w, control⟩ := m
      cases control with
      | settled ending => trivial
      | _ => simp [isSettled] at settled
    · exact h.refl_follows
  | reorder d order =>
    have deed := Deed.reorder m.world d order
    exact ⟨deed.changes, h.positioned.mono fun _ _ found => deed.passes.symm ▸ found⟩

theorem Follows.steady {w : World} {m : Machine} (h : Follows w m) (reached : w.Reached) :
    m.Steady := ⟨reached.leads h.changes.leads, h.positioned⟩

/-- The first poll of a pass opens it before anything else. -/
theorem move_opening {m : Machine} (h : m.Steady) {p : PassId} (opening : m.isOpening p = true) :
    ∃ pass, m.world.passes[p]? = some pass ∧ pass.phase = .fresh ∧
      Follows (m.world.openPass p pass).1 (m.move .tick) := by
  rcases tick_follows h.reached h.positioned with
    ⟨q, pass, opening', found, fresh, follows⟩ | ⟨no, -⟩
  · have same : q = p := by
      obtain ⟨w, control⟩ := m
      cases control with
      | entering r outer =>
        simp only [isOpening, Bool.and_eq_true, decide_eq_true_eq] at opening opening'
        exact opening'.1.symm.trans opening.1
      | _ => simp [isOpening] at opening
    subst same
    exact ⟨pass, found, fresh, follows⟩
  · rw [no p] at opening
    cases opening

theorem move_steady {m : Machine} (h : m.Steady) (move : Move) :
    m.world.Leads (m.move move).world ∧ (m.move move).Steady := by
  by_cases plain : move = .tick → ∀ p, m.isOpening p = false
  · have follows := move_follows h plain
    exact ⟨follows.changes.leads, follows.steady h.reached⟩
  · simp only [Classical.not_imp, not_forall, Bool.not_eq_false] at plain
    obtain ⟨rfl, p, opening⟩ := plain
    obtain ⟨pass, found, fresh, follows⟩ := move_opening h opening
    have opened : m.world.Leads (m.world.openPass p pass).1 := .single (.opening found fresh)
    exact ⟨opened.trans follows.changes.leads, follows.steady (h.reached.leads opened)⟩

theorem run_steady {m : Machine} (h : m.Steady) (moves : List Move) :
    m.world.Leads (m.run moves).world ∧ (m.run moves).Steady := by
  induction moves generalizing m with
  | nil => exact ⟨.refl, h⟩
  | cons move moves ih =>
    obtain ⟨leads, steady⟩ := move_steady h move
    obtain ⟨leads', steady'⟩ := ih steady
    exact ⟨leads.trans leads', steady'⟩

theorem run_reached (arity : Arity) (blueprints : List Blueprint) (moves : List Move) :
    ((idle arity blueprints).run moves).world.Reached :=
  (run_steady (steady_idle arity blueprints) moves).2.reached

theorem move_unopened {m : Machine} (h : m.Steady) {move : Move} {p : PassId}
    (other : ¬ (m.isOpening p = true ∧ move = .tick)) (unopened : m.world.Unopened p) :
    (m.move move).world.Unopened p := by
  by_cases plain : move = .tick → ∀ q, m.isOpening q = false
  · exact (move_follows h plain).changes.unopened unopened
  · simp only [Classical.not_imp, not_forall, Bool.not_eq_false] at plain
    obtain ⟨rfl, q, opening⟩ := plain
    obtain ⟨pass, found, fresh, follows⟩ := move_opening h opening
    have hpq : ¬ p = q := fun same => other ⟨same ▸ opening, rfl⟩
    exact follows.changes.unopened ((PassStep.opening found fresh).unopened hpq unopened)

/-- A pass that is not polled in a run is not opened. -/
theorem run_unopened {m : Machine} (h : m.Steady) {p : PassId} {moves : List Move}
    (never : m.openingOf p moves = none) (unopened : m.world.Unopened p) :
    (m.run moves).world.Unopened p := by
  induction moves generalizing m with
  | nil => exact unopened
  | cons move moves ih =>
    unfold openingOf at never
    split at never
    · cases never
    · rename_i other
      simp only [Bool.and_eq_true, decide_eq_true_eq] at other
      exact ih (move_steady h move).2 never (move_unopened h other unopened)

/-- A pass that is polled in a run is opened in the world before, and the run goes on from there. -/
theorem run_opened {m : Machine} (h : m.Steady) {p : PassId} {moves : List Move}
    {opening : World} (opens : m.openingOf p moves = some opening) :
    opening.Reached ∧ ∃ pass, opening.passes[p]? = some pass ∧ pass.phase = .fresh ∧
      (opening.openPass p pass).1.Leads (m.run moves).world := by
  obtain ⟨before, after, rfl, is_opening, rfl⟩ := openingOf_eq_some opens
  have steady := (run_steady h before).2
  obtain ⟨pass, found, fresh, follows⟩ := move_opening steady is_opening
  refine ⟨steady.reached, pass, found, fresh, ?_⟩
  have opened : (m.run before).world.Leads ((m.run before).world.openPass p pass).1 :=
    .single (.opening found fresh)
  have rest := run_steady (follows.steady (steady.reached.leads opened)) after
  rw [run_append]
  exact follows.changes.leads.trans rest.1

theorem openingOf_append {p : PassId} {m : Machine} {moves : List Move} {opening : World}
    (h : m.openingOf p moves = some opening) (more : List Move) :
    m.openingOf p (moves ++ more) = some opening := by
  induction moves generalizing m with
  | nil => cases h
  | cons move moves ih =>
    by_cases now : (m.isOpening p && decide (move = .tick)) = true
    · simpa only [List.cons_append, openingOf, now, if_true] using h
    · simp only [List.cons_append, openingOf, now] at h ⊢
      exact ih h

end Machine
end Fanout
