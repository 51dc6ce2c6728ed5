import Fanout.Proofs.Aggregate
import Fanout.Proofs.Guards

/-! What isolation is worth. A dispatcher that isolates panics catches those of the calls of its
passes: each becomes the failure of its own call, and the other calls go on. A panic comes out of
such a pass only in its first poll, when a handler panics that is asked for its name, and then no
call of the pass has begun. -/
namespace Fanout
namespace World

/-- No panic came out of the pass, unless its dispatcher lets panics through. -/
def Unbroken (w : World) (p : PassId) : Prop :=
  ∀ pass, w.passes[p]? = some pass → (w.settings pass.dispatcher).isolatePanics = true →
    ∀ payload, pass.phase ≠ .closed (.panicked payload)

/-- Where one pass turns into another that did not panic, nothing else panics. -/
theorem closed_of_set {w w' : World} {q : PassId} {old new : Pass}
    (before : w.passes[q]? = some old) (passes : w'.passes = w.passes.set q new)
    {payload : Payload} (other : new.phase ≠ .closed (.panicked payload)) {p : PassId}
    {pass : Pass} (found : w'.passes[p]? = some pass)
    (closed : pass.phase = .closed (.panicked payload)) : w.passes[p]? = some pass := by
  rw [passes] at found
  by_cases same : q = p
  · subst same
    rw [getElem?_set_of_some _ before, Option.some.injEq] at found
    exact absurd (found ▸ closed) other
  · rwa [List.getElem?_set_ne same] at found

/-- No change makes a panic come out of a pass whose dispatcher isolates panics. -/
theorem Change.panicked {w w' : World} (h : Change w w') {p : PassId} {pass : Pass}
    (found : w'.passes[p]? = some pass) {payload : Payload}
    (closed : pass.phase = .closed (.panicked payload)) : w.passes[p]? = some pass ∨
      ∃ before, w.passes[p]? = some before ∧ pass.dispatcher = before.dispatcher ∧
        (w.settings before.dispatcher).isolatePanics = false := by
  cases h with
  | deed deed => exact .inl (deed.passes ▸ found)
  | @start d named token sender args lineage caller =>
    refine .inl ?_
    simp only [World.start, List.getElem?_append] at found
    split at found
    · exact found
    · have started := List.mem_singleton.mp (List.mem_of_getElem? found)
      subst started
      cases closed
  | @queue q i other call permits call_of idle limited short =>
    have first := passes_setPermits call_of.found (permits.enqueue i)
    have passes := passes_setStatus (first ▸ getElem?_set_of_some _ call_of.found) i .queued
    rw [first, List.set_set] at passes
    exact .inl (closed_of_set call_of.found passes (by simp [Pass.setCall, call_of.running]) found
      closed)
  | begin call_of admits =>
    obtain ⟨_, other, -, running, passes, -⟩ := beginCall_becomes call_of admits False
    exact .inl (closed_of_set call_of.found passes (by simp [running]) found closed)
  | proceed call_of begun after rest waits =>
    exact .inl (closed_of_set call_of.found (passes_setStatus call_of.found _ _)
      (by simp [Pass.setCall, call_of.running]) found closed)
  | returnCall call_of begun error =>
    exact .inl (closed_of_set call_of.found (passes_returnCall call_of.found _ _ _)
      (by simp [(Pass.retire_same _ _ _).2.2, call_of.running]) found closed)
  | catchPanic call_of begun isolated payload =>
    exact .inl (closed_of_set call_of.found (passes_catchPanic call_of.found _ _ _ _)
      (by simp [(Pass.retire_same _ _ _).2.2, call_of.running]) found closed)
  | complete before running finished =>
    exact .inl (closed_of_set before (passes_close before _) (by simp) found closed)
  | @giveUp q other before isOpen ending incomplete unisolated =>
    by_cases same : q = p
    · subst same
      rw [passes_abandonPass before isOpen, getElem?_set_of_some _ before,
        Option.some.injEq] at found
      subst found
      cases closed
      exact .inr ⟨other, before, rfl, unisolated payload rfl⟩
    · rw [passes_abandonPass before isOpen, List.getElem?_set_ne same] at found
      exact .inl found

theorem Unbroken.change {w w' : World} (reached : w.Reached) {p : PassId} (h : w.Unbroken p)
    (change : Change w w') : w'.Unbroken p := by
  intro pass found isolated payload closed
  have settings : ∀ {before : Pass}, w.passes[p]? = some before →
      w'.settings before.dispatcher = w.settings before.dispatcher :=
    fun before => change.tableStep.settings (reached.belongs before)
  rcases change.panicked found closed with before | ⟨other, before, same, unisolated⟩
  · rw [settings before] at isolated
    exact h pass before isolated payload closed
  · rw [same, settings before, unisolated] at isolated
    cases isolated

theorem Unbroken.changes {w w' : World} (reached : w.Reached) {p : PassId} (h : w.Unbroken p)
    (changes : w.Changes w') : w'.Unbroken p := by
  induction changes with
  | refl => exact h
  | tail before last ih => exact ih.change (reached.leads (Changes.leads before)) last

/-- The first poll of another pass does not concern this one. -/
theorem Unbroken.opening {w : World} (reached : w.Reached) {p q : PassId} (h : w.Unbroken p)
    {opened : Pass} (at_q : w.passes[q]? = some opened) (fresh : opened.phase = .fresh)
    (other : q ≠ p) : (w.openPass q opened).1.Unbroken p := by
  intro pass found isolated
  have same : w.passes[p]? = some pass := by
    cases read : (w.survey q opened.dispatcher).readNames (w.snapshotOf opened.dispatcher).live with
    | error payload => rwa [passes_openPass_error at_q read, List.getElem?_set_ne other] at found
    | ok names => rwa [passes_openPass_ok at_q read, List.getElem?_set_ne other] at found
  have step : w.Progress (w.openPass q opened).1 := .opening at_q fresh
  rw [step.tableStep.settings (reached.belongs same)] at isolated
  exact h pass same isolated

/-- A pass that was opened and did not panic then never does. -/
theorem Unbroken.leads {w w' : World} (reached : w.Reached) {p : PassId} (h : w.Unbroken p)
    {plan : List (HandlerId × String)} (opened : w.Opened p plan) (leads : w.Leads w') :
    w'.Unbroken p := by
  induction leads with
  | refl => exact h
  | @tail middle last before progress ih =>
    have middle_reached := reached.leads before
    cases progress with
    | change change => exact ih.change middle_reached change
    | @opening q pass found fresh =>
      refine ih.opening middle_reached found fresh ?_
      rintro rfl
      obtain ⟨other, found', not_fresh, -⟩ := Leads.opened before opened
      rw [found, Option.some.injEq] at found'
      exact not_fresh (found' ▸ fresh)

end World

namespace Machine
open World

theorem move_unbroken {m : Machine} (h : m.Steady) {move : Move} {p : PassId}
    (other : ¬ (m.isOpening p = true ∧ move = .tick)) (unbroken : m.world.Unbroken p) :
    (m.move move).world.Unbroken p := by
  by_cases plain : move = .tick → ∀ q, m.isOpening q = false
  · exact unbroken.changes h.reached (move_follows h plain).changes
  · simp only [Classical.not_imp, not_forall, Bool.not_eq_false] at plain
    obtain ⟨rfl, q, opening⟩ := plain
    obtain ⟨pass, found, fresh, follows⟩ := move_opening h opening
    have different : q ≠ p := fun same => other ⟨same ▸ opening, rfl⟩
    exact (unbroken.opening h.reached found fresh different).changes
      (h.reached.leads (.single (.opening found fresh))) follows.changes

/-- A pass that is not polled in a run does not panic. -/
theorem run_unbroken {m : Machine} (h : m.Steady) {p : PassId} {moves : List Move}
    (never : m.openingOf p moves = none) (unbroken : m.world.Unbroken p) :
    (m.run moves).world.Unbroken p := by
  induction moves generalizing m with
  | nil => exact unbroken
  | cons move moves ih =>
    unfold openingOf at never
    split at never
    · cases never
    · rename_i other
      simp only [Bool.and_eq_true, decide_eq_true_eq] at other
      exact ih (move_steady h move).2 never (move_unbroken h other unbroken)

/-- The panic of a call is caught in the next step, if the dispatcher of its pass isolates
panics. -/
theorem caught_of_ending {m : Machine} (h : m.Steady) {payload : Payload} {frame : Frame}
    {outer : List Frame} (ending : m.control = .ending (.panicked payload) (frame :: outer))
    {pass : Pass} (found : m.world.passes[frame.pass]? = some pass)
    (isolated : (m.world.settings pass.dispatcher).isolatePanics = true) :
    ∃ call, pass.calls[frame.call]? = some call ∧
      (m.move .tick).world.history.filter Event.isMark =
        .caught frame.pass frame.call pass.dispatcher call.name payload.info :: m.world.marks := by
  obtain ⟨w, control⟩ := m
  cases ending
  obtain ⟨turning, same, call, found', at_position, busy⟩ := h.positioned
  rw [found, Option.some.injEq] at found'
  subst found'
  have here : w.call? frame.pass frame.call = some call := by
    rw [call?_of_found found, at_position]
  refine ⟨call, at_position, ?_⟩
  simp only [move, tick, conclude, found, here, isolated, if_true]
  exact marks_retire ..

end Machine

theorem mem_ends_of_caught {p : PassId} {i : Nat} {d : DispatcherId} {name info : String}
    {events : List Event} (caught : .caught p i d name info ∈ events) :
    (i, some (.panicked info)) ∈ ends p events :=
  List.mem_filterMap.mpr ⟨_, caught, if_pos rfl⟩

/-- In the answer of a pass, every panic that was caught is the failure of its own call. -/
theorem Aggregate.panicked {p : PassId} {history : List Event} {opening : World}
    {live : List HandlerId} {names : List String} {results : List (Option CallError)}
    {error : Option DispatchError} (h : Aggregate p history opening live names results error)
    {i : Nat} {d : DispatcherId} {name info : String}
    (caught : .caught p i d name info ∈ history) :
    results[i]? = some (some (.panicked info)) := by
  have ended := h.all_over.mem_iff.mp (mem_ends_of_caught caught)
  rw [← h.whole] at ended
  exact (mem_range_zip_iff results i _).mp ended

/-- A pass of a dispatcher that isolates panics ends in a panic only if it did so in its first poll,
where a name panicked and nothing was called. What panics in a call is caught and reported, and all
other handlers are called once and waited for. -/
theorem panics_isolated (arity : Arity) (blueprints : List Blueprint) (moves : List Move)
    (p : PassId) {pass : Pass}
    (found : ((Machine.idle arity blueprints).run moves).world.passes[p]? = some pass)
    (isolated : (((Machine.idle arity blueprints).run moves).world.settings
      pass.dispatcher).isolatePanics = true) :
    let m := (Machine.idle arity blueprints).run moves
    (∀ payload frame outer, m.control = .ending (.panicked payload) (frame :: outer) →
      frame.pass = p → ∃ call, pass.calls[frame.call]? = some call ∧
        (m.move .tick).world.marks =
          .caught p frame.call pass.dispatcher call.name payload.info :: m.world.marks) ∧
    match (Machine.idle arity blueprints).openingOf p moves with
    | none => ∀ payload, pass.phase ≠ .closed (.panicked payload)
    | some opening =>
        let live := (opening.snapshotOf pass.dispatcher).live
        match opening.readNames live with
        | .error payload =>
            pass.phase = .closed (.panicked payload) ∧ called p m.world.history = []
        | .ok names =>
            (∀ payload, pass.phase ≠ .closed (.panicked payload)) ∧
            ∀ error, pass.phase = .closed (.completed error) →
              (called p m.world.history).Perm live ∧
              ∃ results, Aggregate p m.world.history opening live names results error ∧
                ∀ i d name info, .caught p i d name info ∈ m.world.history →
                  results[i]? = some (some (.panicked info)) := by
  intro m
  have steady : m.Steady := (Machine.run_steady (Machine.steady_idle arity blueprints) moves).2
  have reached : m.world.Reached := steady.reached
  refine ⟨fun payload frame outer ending same => ?_, ?_⟩
  · subst same
    exact Machine.caught_of_ending steady ending found isolated
  cases opens : (Machine.idle arity blueprints).openingOf p moves with
  | none =>
    have unbroken := Machine.run_unbroken (Machine.steady_idle arity blueprints) opens
      (by simp [World.Unbroken, Machine.idle])
    exact unbroken pass found isolated
  | some opening =>
    obtain ⟨opening_reached, first, found_first, fresh, leads⟩ :=
      Machine.run_opened (Machine.steady_idle arity blueprints) opens
    have step : opening.Progress (opening.openPass p first).1 := .opening found_first fresh
    obtain ⟨last, found_last, -, same⟩ := World.Leads.keeps (leads.head step) found_first
    rw [found, Option.some.injEq] at found_last
    subst found_last
    rw [same]
    dsimp only
    cases read : opening.readNames (opening.snapshotOf first.dispatcher).live with
    | error payload =>
      have refused := leads.closed (World.refused_of_names found_first read) rfl
      rw [found, Option.some.injEq] at refused
      have nothing := reached.recorded.called_nil (p := p) fun other again => by
        rw [found, Option.some.injEq] at again
        rw [← again, refused]
        exact (opening_reached.recorded.sound p first found_first).fresh_empty fresh
      exact ⟨by rw [refused], nothing.1⟩
    | ok names =>
      have opened := World.opened_of_names found_first read
      have unbroken_first : (opening.openPass p first).1.Unbroken p := by
        intro other found_other _ payload closed
        rw [World.passes_openPass_ok found_first ((World.readNames_survey ..).trans read),
          World.getElem?_set_of_some _ found_first, Option.some.injEq] at found_other
        rw [← found_other] at closed
        cases closed
      have unbroken := unbroken_first.leads (opening_reached.leads (.single step)) opened leads
      refine ⟨unbroken pass found isolated, fun error closed => ?_⟩
      obtain ⟨other, found_other, -, plan⟩ := leads.opened opened
      rw [found, Option.some.injEq] at found_other
      subst found_other
      have named := World.readNames_forall₂
        (fun _ hh => World.known_of_alive (World.alive_of_mem_live hh)) read
      have aggregate := reached.recorded.aggregate found closed named plan
      have handlers : pass.calls.map Call.handler = (opening.snapshotOf first.dispatcher).live := by
        rw [← List.map_fst_zip named.length_eq.le, ← plan, Pass.plan, List.map_map]
        rfl
      have all := (reached.recorded.called_of_planned found
        (World.snapshot_live_nodup opening_reached.placed first.dispatcher) handlers).2.2
      exact ⟨all error closed, _, aggregate, fun i d name info => aggregate.panicked⟩

/-- One handler fails, the other panics, and both are reported. -/
theorem panics_isolated_reported :
    let w := ((Machine.idle .simple renamingBlueprints).run renamingMoves).world
    ∃ pass opening names results, w.passes[0]? = some pass ∧
      (w.settings pass.dispatcher).isolatePanics = true ∧
      Aggregate 0 w.history opening (opening.snapshotOf pass.dispatcher).live names results
        (some (.handlersFailed 2 [⟨"a", .failed "no"⟩, ⟨"b", .panicked "boom"⟩])) ∧
      results[1]? = some (some (.panicked "boom")) := by
  intro w
  have state : (w.passes[0]?).map (fun pass => (pass.phase, pass.dispatcher)) =
      some (.closed (.completed (some (.handlersFailed 2
        [⟨"a", .failed "no"⟩, ⟨"b", .panicked "boom"⟩]))), 0) := by decide +kernel
  obtain ⟨pass, found, fields⟩ := Option.map_eq_some_iff.mp state
  obtain ⟨closed, belongs⟩ := Prod.mk.inj fields
  have isolated : (w.settings pass.dispatcher).isolatePanics = true := by
    rw [belongs]
    decide +kernel
  have opens : ((Machine.idle .simple renamingBlueprints).openingOf 0 renamingMoves).isSome =
      true := by decide +kernel
  have reported := (panics_isolated .simple renamingBlueprints renamingMoves 0 found isolated).2
  split at reported
  · rename_i never
    rw [never] at opens
    cases opens
  · rename_i opening _
    dsimp only at reported
    split at reported
    · rw [closed] at reported
      cases reported.1
    · rename_i names _
      obtain ⟨-, results, aggregate, caught⟩ := reported.2 _ closed
      refine ⟨pass, opening, names, results, found, isolated, aggregate, ?_⟩
      exact caught 1 0 "b" "boom" (by decide +kernel)

/-- One handler panics when it is asked for its name, the other one does nothing at all. -/
def namelessMoves : List Move :=
  [.act (.createDispatcher (some "d") .usual), .act (.createHandler (some "a") 0 none),
    .act (.createHandler (some "b") 1 none), .act (.register (some "d") (some "a")),
    .act (.register (some "d") (some "b")), .start { dispatcher := some "d" }, .poll 0] ++
  List.replicate 2 .tick

/-- The panic comes out of the pass, although the dispatcher isolates panics, and nobody was
called. -/
theorem panic_of_name_escapes :
    let m := (Machine.idle .simple [{ make := .custom none (some (.composed "boom")) }, {}]).run
      namelessMoves
    (m.world.settings 0).isolatePanics = true ∧
    (m.world.passes[0]?).map Pass.phase = some (.closed (.panicked (.composed "boom"))) ∧
    m.control = .settled (some (.panicked (.composed "boom"))) ∧ called 0 m.world.history = [] := by
  decide +kernel

end Fanout
