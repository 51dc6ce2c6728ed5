import Fanout.Proofs.Accounts
import Fanout.Proofs.Carriage
import Fanout.Proofs.DroppedTurns
import Fanout.Proofs.Guards
import Fanout.Proofs.Turns

/-! What a panic leaves behind. A panic comes out of a pass if a handler panics that is asked for
its name, in the first poll, or if a call does and the pass does not isolate panics. It may strike
while calls of the pass are running, waiting for permits or over; each time all of them are given
up, and the world is left as if the pass had been dropped there and then. -/
namespace Fanout

@[simp] theorem Ending.asDropped_self (p : PassId) (ending : Ending) :
    Ending.asDropped p p ending = .dropped := if_pos rfl

theorem Pass.holds_of_over {pass : Pass}
    (finished : ∀ call ∈ pass.calls, call.status.isUnfinished = false) (h : HandlerId) :
    pass.holds h = 0 := by
  refine List.sum_eq_zero fun n hn => ?_
  obtain ⟨call, hc, rfl⟩ := List.mem_map.mp hn
  simp [Call.holds, finished call hc]

namespace World

/-- What the panic carried that came out of the pass. -/
def panicOf (w : World) (p : PassId) : Option Payload :=
  match (w.passes[p]?).map Pass.phase with
  | some (.closed (.panicked payload)) => some payload
  | _ => none

theorem panicOf_eq_some_iff (w : World) (p : PassId) (payload : Payload) :
    w.panicOf p = some payload ↔
      ∃ pass, w.passes[p]? = some pass ∧ pass.phase = .closed (.panicked payload) := by
  unfold panicOf
  cases w.passes[p]? with
  | none => simp
  | some pass =>
    rcases hp : pass.phase with _ | _ | (_ | _ | _) <;> simp [hp]

/-- A panic comes out only of a pass that may break. -/
theorem Calm.breaks {mayBreak : PassId → Prop} {w w' : World} (calm : w.Calm mayBreak w')
    {p : PassId} (before : w.panicOf p = none) {payload : Payload}
    (after : w'.panicOf p = some payload) : mayBreak p := by
  obtain ⟨pass', found, closed⟩ := (panicOf_eq_some_iff ..).mp after
  obtain ⟨pass, there, same⟩ := calm.passes p pass' found
  refine (same.panicked payload closed).resolve_right fun already => ?_
  rw [(panicOf_eq_some_iff ..).mpr ⟨pass, there, already⟩] at before
  cases before

theorem panicOf_of_summon {w started : World} {caller : Option (CallId × Pass)} {summons : Summons}
    {q : PassId} (summoned : w.summon caller summons = .ok (q, started)) {p : PassId}
    (before : w.panicOf p = none) : started.panicOf p = none := by
  obtain ⟨-, -, -, new, passes, -, -, fresh⟩ := summon_carries summoned
  cases after : started.panicOf p with
  | none => rfl
  | some payload =>
    obtain ⟨pass, found, closed⟩ := (panicOf_eq_some_iff ..).mp after
    rw [passes, List.getElem?_append] at found
    split at found
    · rw [(panicOf_eq_some_iff ..).mpr ⟨pass, found, closed⟩] at before
      cases before
    · obtain rfl := List.mem_singleton.mp (List.mem_of_getElem? found)
      rw [fresh] at closed
      cases closed

/-- If a name panics, then it is the first one that does, wherever it stands. -/
theorem readNames_eq_error {w : World} {hs : List HandlerId} {payload : Payload}
    (read : w.readNames hs = .error payload) : ∃ earlier h later handler names,
      hs = earlier ++ h :: later ∧ w.readNames earlier = .ok names ∧
        w.handlers.find? h = some handler ∧ handler.naming.read = .error payload := by
  induction hs with
  | nil => cases read
  | cons h hs ih =>
    unfold readNames at read
    cases there : w.handlers.find? h with
    | none =>
      rw [there] at read
      obtain ⟨earlier, g, later, handler, names, rfl, named, found, refuses⟩ := ih read
      refine ⟨h :: earlier, g, later, handler, names, rfl, ?_, found, refuses⟩
      simp only [readNames, there, named]
    | some handler =>
      simp only [there] at read
      cases asked : handler.naming.read with
      | error refusal =>
        rw [asked] at read
        cases read
        exact ⟨[], h, hs, handler, [], rfl, rfl, there, asked⟩
      | ok name =>
        simp only [asked] at read
        cases rest : w.readNames hs with
        | ok names =>
          rw [rest] at read
          cases read
        | error refusal =>
          rw [rest] at read
          cases read
          obtain ⟨earlier, g, later, found, names, rfl, named, there', refuses⟩ := ih rest
          refine ⟨h :: earlier, g, later, found, name :: names, rfl, ?_, there', refuses⟩
          simp only [readNames, there, asked, named]
          rfl

theorem readNames_of_refused {w : World} {earlier later : List HandlerId} {names : List String}
    {h : HandlerId} {handler : Handler} {payload : Payload}
    (named : w.readNames earlier = .ok names) (there : w.handlers.find? h = some handler)
    (refuses : handler.naming.read = .error payload) :
    w.readNames (earlier ++ h :: later) = .error payload := by
  induction earlier generalizing names with
  | nil => simp only [List.nil_append, readNames, there, refuses]
  | cons g gs ih =>
    simp only [List.cons_append, readNames] at named ⊢
    cases known : w.handlers.find? g with
    | none =>
      simp only [known] at named
      exact ih named
    | some asked =>
      simp only [known] at named
      cases name : asked.naming.read with
      | error refusal =>
        rw [name] at named
        cases named
      | ok name =>
        cases rest : w.readNames gs with
        | error refusal =>
          simp only [name, rest] at named
          cases named
        | ok others =>
          simp only [name, ih rest]
          rfl

theorem marks_abandonPass (w : World) (p : PassId) (ending : Ending) :
    (w.abandonPass p ending).marks = w.marks := by
  have closed : ∀ v : World, (v.close p ending).marks = v.marks := by
    intro v
    unfold close
    split <;> rfl
  unfold abandonPass
  split
  · split
    · exact (closed _).trans (marks_abandonCalls ..)
    · rfl
  · rfl

theorem marks_abandon (w : World) (p : PassId) (ending : Ending) :
    (w.abandon p ending).marks = w.marks := by
  have all : ∀ (qs : List PassId) (v : World),
      (qs.foldl (fun w q => w.abandonPass q .dropped) v).marks = v.marks := by
    intro qs
    induction qs with
    | nil => exact fun v => rfl
    | cons q qs ih => exact fun v => (ih _).trans (marks_abandonPass v q .dropped)
  exact (marks_abandonPass _ p ending).trans (all _ w)

/-- What becomes of the pass itself that is given up. -/
theorem getElem?_passes_abandon {w : World} (linked : w.Linked) {p : PassId} {pass : Pass}
    (found : w.passes[p]? = some pass) (isOpen : pass.phase.isOpen = true) (ending : Ending) :
    (w.abandon p ending).passes[p]? = some (pass.giveUp ending) := by
  have outside : p ∉ w.descendants p := fun inner => (lt_of_mem_descendants linked inner).ne rfl
  have here := (w.passes_abandonPasses_of_not_mem outside).trans found
  unfold abandon
  rw [passes_abandonPass here isOpen]
  exact getElem?_set_of_some _ here

/-- A pass that has no calls is only closed. -/
theorem abandonPass_of_no_calls {w : World} {p : PassId} {pass : Pass}
    (found : w.passes[p]? = some pass) (isOpen : pass.phase.isOpen = true)
    (no_calls : pass.calls = []) (ending : Ending) :
    w.abandonPass p ending = w.close p ending := by
  rw [abandonPass_eq found isOpen]
  simp only [abandonCalls, no_calls, List.length_nil, List.range_zero, List.foldl_nil]

theorem callsReturned_of_marks {w w' : World} (marks : w'.marks = w.marks) :
    w'.callsReturned = w.callsReturned := by
  have listed : ∀ v : World, v.callsReturned = v.marks.filterMap Event.returned? := by
    intro v
    unfold callsReturned World.marks
    rw [List.filterMap_filter]
    congr 1
    funext event
    cases event <;> rfl
  rw [listed, listed, marks]

/-- A call that was in flight and is not any more, although no call has returned, was cut. -/
theorem Leads.cut {w w' : World} (leads : w.Leads w') (reached : w.Reached)
    (returned : w'.callsReturned = w.callsReturned) {call : CallId} (flies : call ∈ w.inFlight)
    (landed : call ∉ w'.inFlight) : call ∈ w'.callsCut := by
  have before := reached.squared
  have after := (reached.leads leads).squared
  have begun : call ∈ w.callsBegun.map Prod.fst :=
    before.all_there.mem_iff.mpr (List.mem_append_right _ flies)
  have still : call ∈ w'.callsBegun.map Prod.fst := by
    obtain ⟨later, history⟩ := leads.history
    simp only [callsBegun, history, List.filterMap_append, List.map_append, List.mem_append]
    exact .inr begun
  have not_returned : call ∉ w'.callsReturned := by
    intro ended
    rw [returned] at ended
    exact (List.nodup_append'.mp before.once).2.2 (List.mem_append_left _ ended) flies
  rcases List.mem_append.mp (after.all_there.mem_iff.mp still) with ended | flies'
  · exact (List.mem_append.mp ended).resolve_left not_returned
  · exact absurd flies' landed

end World

namespace Machine
open World

/-- The call that is ending by a panic, and what the panic carries. -/
def panicking? (m : Machine) : Option (CallId × Payload) :=
  match m.control with
  | .ending (.panicked payload) (frame :: _) => some (frame.callId, payload)
  | _ => none

theorem panicking?_eq_some {m : Machine} {call : CallId} {payload : Payload}
    (h : m.panicking? = some (call, payload)) : ∃ frame outer,
      m.control = .ending (.panicked payload) (frame :: outer) ∧ frame.callId = call := by
  unfold panicking? at h
  split at h
  · rename_i control
    cases h
    exact ⟨_, _, control, rfl⟩
  · cases h

/-- The next step makes a panic come out of the pass. It strikes in the first of two worlds, and the
second one is what would be left if the pass were dropped there and then. -/
inductive Strikes (m : Machine) (p : PassId) (pass : Pass) (payload : Payload) :
    World → World → Prop
  /-- A handler that the pass has found panics when it is asked for its name; the pass holds
  references to all that it has found. -/
  | name {earlier later : List HandlerId} {h : HandlerId} {handler : Handler} {names : List String}
      (opening : m.isOpening p = true)
      (snapshot : (m.world.snapshotOf pass.dispatcher).live = earlier ++ h :: later)
      (named : m.world.readNames earlier = .ok names)
      (there : m.world.handlers.find? h = some handler)
      (refuses : handler.naming.read = .error payload) :
      Strikes m p pass payload (m.world.survey p pass.dispatcher)
        (((m.world.survey p pass.dispatcher).releaseAll (earlier ++ h :: later)).abandonPass p
          .dropped)
  /-- A call of the pass panics, and the panic is not caught. -/
  | call {i : Nat} (panics : m.panicking? = some (⟨p, i⟩, payload))
      (unisolated : (m.world.settings pass.dispatcher).isolatePanics = false) :
      Strikes m p pass payload m.world (m.world.abandon p .dropped)

/-- What the next step makes of a machine is what is left if the pass is dropped. -/
structure LeavesAsDropped (m : Machine) (p : PassId) (struck dropped : World) : Prop where
  cut : ∀ call ∈ m.world.inFlight, call.pass = p → call ∈ m.tick.world.callsCut
  /-- None of its calls is ever in flight again, and none begins that has not begun. -/
  over_for_good : ∀ more, (∀ call ∈ (m.tick.run more).world.inFlight, call.pass ≠ p) ∧
    begins p (m.tick.run more).world.history = begins p m.world.history
  /-- None of them holds a permit or waits for one, and none holds a reference. -/
  released : ∃ pass, m.tick.world.passes[p]? = some pass ∧
    (∀ call ∈ pass.calls, call.status.isUnfinished = false) ∧ ∀ h, pass.holds h = 0
  /-- All references that there are belong to somebody else. -/
  references : m.tick.world.Balanced []
  table : m.tick.world.dispatchers = struck.dispatchers
  /-- Whatever is done from now on, it comes to the same. -/
  goes_on : ∀ more, (m.tick.run more).asDropped p =
    ((⟨dropped, m.tick.control⟩ : Machine).run more).asDropped p

theorem Steady.concluding {m : Machine} (steady : m.Steady) {verdict : Verdict}
    {frames : List Frame} (control : m.control = .ending verdict frames) :
    Concluding m.world.passes frames := by
  have positioned := steady.positioned
  unfold Positioned at positioned
  rwa [control] at positioned

/-- A panic that is not caught goes on, out of the pass. -/
theorem tick_of_uncaught {m : Machine} (steady : m.Steady) {payload : Payload} {frame : Frame}
    {outer : List Frame} (control : m.control = .ending (.panicked payload) (frame :: outer))
    {pass : Pass} (found : m.world.passes[frame.pass]? = some pass)
    (unisolated : (m.world.settings pass.dispatcher).isolatePanics = false) :
    pass.phase.isOpen = true ∧ m.tick =
      ⟨m.world.abandon frame.pass (.panicked payload), .ending (.panicked payload) outer⟩ := by
  obtain ⟨turning, busy, call, found', at_position, -⟩ := steady.concluding control
  rw [found, Option.some.injEq] at found'
  subst found'
  have here : m.world.call? frame.pass frame.call = some call := by
    rw [call?_of_found found, at_position]
  refine ⟨by rw [turning.phase found]; rfl, ?_⟩
  simp only [tick, control, conclude, found, here, unisolated, Bool.false_eq_true, if_false]

/-- A panic comes out of a pass only in a step of the poll that is under way. -/
theorem ticks_of_panic {m : Machine} {move : Move} {p : PassId} {payload : Payload}
    (before : m.world.panicOf p = none) (after : (m.move move).world.panicOf p = some payload) :
    move = .tick := by
  by_contra other
  rcases m.move_calm other with calm | ⟨summons, q, started, rfl, summoned, world⟩
  · exact calm.breaks before after
  · rw [world, panicOf_of_summon summoned before] at after
    cases after

/-- It strikes in one of the two ways. -/
theorem strikes_of_panic {m : Machine} (steady : m.Steady) {p : PassId} {payload : Payload}
    (before : m.world.panicOf p = none) (after : m.tick.world.panicOf p = some payload) :
    ∃ pass struck dropped outer, m.world.passes[p]? = some pass ∧
      m.tick.control = .ending (.panicked payload) outer ∧
      m.Strikes p pass payload struck dropped := by
  have stays : ∀ (v : World) (q : PassId) (i : Nat) (status : Status),
      v.Calm (fun _ => False) (v.setStatus q i status) := Calm.setStatus
  have broke := (panicOf_eq_some_iff ..).mp after
  cases m.tick_stir with
  | calm calm => exact (calm.breaks before after).elim
  | begins h number control found calm tick =>
    rw [tick] at after
    exact ((calm.trans (.of_eq rfl rfl rfl)).breaks before after).elim
  | raises control found at_position status summoned tick =>
    rw [tick] at after
    exact ((stays _ _ _ _).breaks (panicOf_of_summon summoned before) after).elim
  | @refuses q outer pass payload' control found fresh read tick =>
    have opened : m.world.Calm (· = q) (m.world.openPass q pass).1 :=
      .openPass m.world q pass fun _ _ => rfl
    rw [tick] at after
    obtain rfl : p = q := opened.breaks before after
    rw [readNames_survey] at read
    obtain ⟨pass', found', panicked⟩ := broke
    rw [tick, refused_of_names found read, Option.some.injEq] at found'
    subst found'
    cases panicked
    obtain ⟨earlier, h, later, handler, names, snapshot, named, there, refuses⟩ :=
      readNames_eq_error read
    have opening : m.isOpening p = true := by simp [isOpening, control, isFresh, found, fresh]
    exact ⟨pass, _, _, outer, found, by rw [tick], .name opening snapshot named there refuses⟩
  | @breaks payload' frame outer pass call control found at_position unisolated tick =>
    have given_up : m.world.Calm (· = frame.pass)
        (m.world.abandon frame.pass (.panicked payload')) :=
      .abandon m.world frame.pass _ fun _ _ => rfl
    rw [tick] at after
    obtain rfl : p = frame.pass := given_up.breaks before after
    obtain ⟨isOpen, -⟩ := tick_of_uncaught steady control found unisolated
    obtain ⟨pass', found', panicked⟩ := broke
    rw [tick, getElem?_passes_abandon steady.reached.linked found isOpen,
      Option.some.injEq] at found'
    subst found'
    cases panicked
    have panics : m.panicking? = some (⟨frame.pass, frame.call⟩, payload) := by
      simp only [panicking?, control]
      rfl
    exact ⟨pass, _, _, outer, found, by rw [tick], .call panics unisolated⟩

theorem entering_of_isOpening {m : Machine} {p : PassId} (opening : m.isOpening p = true) :
    ∃ outer, m.control = .entering p outer := by
  unfold isOpening at opening
  split at opening
  · rename_i q outer control
    simp only [Bool.and_eq_true, decide_eq_true_eq] at opening
    exact ⟨outer, opening.1 ▸ control⟩
  · cases opening

/-- The end of a call has to be taken note of before the poll is over. -/
theorem control_move_of_ending {m : Machine} {verdict : Verdict} {frames : List Frame}
    (control : m.control = .ending verdict frames) {move : Move} (other : move ≠ .tick) :
    (m.move move).control = m.control := by
  have unsettled : m.isSettled = false := by simp only [isSettled, control]
  cases move with
  | tick => exact absurd rfl other
  | act action => rfl
  | start summons =>
    simp only [move]
    split <;> rfl
  | poll p => simp [Machine.move, unsettled]
  | suspend => simp only [move, control]
  | drop p => simp [Machine.move, unsettled]
  | reorder d order => rfl

/-- The first call of a pass to panic is the one that makes the panic come out of the pass: until
then nothing is done but by others, and the pass is closed after that. -/
theorem run_panicking {m : Machine} (steady : m.Steady) {call : CallId} {payload : Payload}
    (panics : m.panicking? = some (call, payload)) {pass : Pass}
    (found : m.world.passes[call.pass]? = some pass)
    (unisolated : (m.world.settings pass.dispatcher).isolatePanics = false) {moves : List Move}
    {pass' : Pass} (found' : (m.run moves).world.passes[call.pass]? = some pass')
    (isOpen : pass'.phase.isOpen = true) : (m.run moves).panicking? = some (call, payload) := by
  induction moves generalizing m pass with
  | nil => exact panics
  | cons move moves ih =>
    obtain ⟨frame, outer, control, rfl⟩ := panicking?_eq_some panics
    obtain ⟨leads, steady'⟩ := move_steady steady move
    by_cases ticks : move = .tick
    · subst ticks
      obtain ⟨was_open, tick⟩ := tick_of_uncaught steady control found unisolated
      have closed : (m.move .tick).world.passes[frame.pass]? =
          some (pass.giveUp (.panicked payload)) := by
        have world : (m.move .tick).world = _ := congrArg Machine.world tick
        rw [world]
        exact getElem?_passes_abandon steady.reached.linked found was_open _
      have still := (run_steady steady' moves).1.closed closed rfl
      rw [run, List.foldl_cons] at found'
      cases found'.symm.trans still
      cases isOpen
    · have still : (m.move move).panicking? = some (frame.callId, payload) := by
        simp only [panicking?, control_move_of_ending control ticks, control]
      obtain ⟨last, found'', -, same⟩ := leads.keeps found
      refine ih steady' still found'' ?_ found'
      rw [same, leads.settings (steady.reached.belongs found)]
      exact unisolated

/-- In a run, no call of a pass has panicked before a panic comes out of the pass, unless this is
the panic. -/
theorem Strikes.first {arity : Arity} {blueprints : List Blueprint} {before after : List Move}
    {p : PassId} {pass : Pass} {payload : Payload} {struck dropped : World}
    (strikes : ((idle arity blueprints).run (before ++ after)).Strikes p pass payload struck dropped)
    (found : ((idle arity blueprints).run (before ++ after)).world.passes[p]? = some pass)
    (isOpen : pass.phase.isOpen = true) {call : CallId} {payload' : Payload}
    (panics : ((idle arity blueprints).run before).panicking? = some (call, payload'))
    (same : call.pass = p) :
    ((idle arity blueprints).run (before ++ after)).panicking? = some (call, payload') := by
  subst same
  have steady : ((idle arity blueprints).run before).Steady :=
    (run_steady (steady_idle arity blueprints) before).2
  rw [run_append] at strikes found ⊢
  obtain ⟨leads, -⟩ := run_steady steady after
  obtain ⟨frame, outer, control, rfl⟩ := panicking?_eq_some panics
  obtain ⟨⟨⟨pass', found', running⟩, -⟩, -⟩ := steady.concluding control
  cases strikes with
  | name opening snapshot named there refuses =>
    -- a pass one of whose calls has panicked was opened long ago
    obtain ⟨fresh_pass, here, fresh, -⟩ := move_opening (run_steady steady after).2 opening
    obtain ⟨last, found'', opened, -⟩ := leads.opened
      ⟨pass', found', by rw [running]; nofun, rfl⟩
    cases here.symm.trans found''
    exact absurd fresh opened
  | call panicking unisolated =>
    obtain ⟨last, found'', -, dispatcher⟩ := leads.keeps found'
    cases found.symm.trans found''
    rw [dispatcher, leads.settings (steady.reached.belongs found')] at unisolated
    exact run_panicking steady panics found' unisolated found isOpen

section
variable {m : Machine} (steady : m.Steady) {p : PassId} {pass : Pass} {payload : Payload}
  {struck dropped : World} (strikes : m.Strikes p pass payload struck dropped)
  (found : m.world.passes[p]? = some pass)
include steady strikes found

/-- What the next step does to the world. -/
theorem Strikes.tick : pass.phase.isOpen = true ∧
    (∃ pass', m.tick.world.passes[p]? = some pass' ∧ pass'.phase.isOpen = false) ∧
    m.tick.world.marks = m.world.marks ∧ m.tick.world.dispatchers = struck.dispatchers ∧
    m.tick.world.asDropped p = dropped.asDropped p := by
  cases strikes with
  | @name earlier later h handler names opening snapshot named there refuses =>
    obtain ⟨_, here, fresh, -⟩ := move_opening steady opening
    cases found.symm.trans here
    have no_calls := (steady.reached.recorded.sound p pass found).fresh_empty fresh
    have read : (m.world.survey p pass.dispatcher).readNames
        (m.world.snapshotOf pass.dispatcher).live = .error payload := by
      rw [readNames_survey, snapshot]
      exact readNames_of_refused named there refuses
    have isOpen : pass.phase.isOpen = true := by rw [fresh]; rfl
    have passes : ((m.world.survey p pass.dispatcher).releaseAll (earlier ++ h :: later)).passes =
        m.world.passes := (passes_releaseAll ..).trans (passes_survey ..)
    have world : m.tick.world =
        ((m.world.survey p pass.dispatcher).releaseAll (earlier ++ h :: later)).close p
          (.panicked payload) := by
      obtain ⟨outer, control⟩ := entering_of_isOpening opening
      simp only [tick, control, enter, found, fresh, openPass_error read, snapshot]
      rfl
    rw [world]
    have still := passes ▸ found
    refine ⟨isOpen, ⟨{ pass with phase := .closed (.panicked payload) }, ?_, rfl⟩, ?_, ?_, ?_⟩
    · rw [passes_close still]
      exact getElem?_set_of_some _ still
    · rw [marks_close still, marks_releaseAll, marks_survey]
    · exact (Aside.close ..).dispatchers.trans (Aside.releaseAll ..).dispatchers
    · rw [abandonPass_of_no_calls still isOpen no_calls]
      simp only [asDropped_close, Ending.asDropped_self]
  | @call i panics unisolated =>
    obtain ⟨frame, outer, control, same⟩ := panicking?_eq_some panics
    obtain rfl : frame.pass = p := congrArg CallId.pass same
    obtain ⟨isOpen, tick⟩ := tick_of_uncaught steady control found unisolated
    rw [tick]
    refine ⟨isOpen, ⟨_, getElem?_passes_abandon steady.reached.linked found isOpen _, rfl⟩,
      marks_abandon .., (Aside.abandon ..).dispatchers, ?_⟩
    simp only [asDropped_abandon, Ending.asDropped_self]

/-- Nothing of the pass is left but what is left of a pass that was dropped. -/
theorem Strikes.leavesAsDropped : m.LeavesAsDropped p struck dropped := by
  obtain ⟨-, ⟨pass', found', closed⟩, marks, table, same⟩ := strikes.tick steady found
  obtain ⟨leads, steady'⟩ := move_steady steady .tick
  have reached : m.tick.world.Reached := steady'.reached
  have finished : ∀ call ∈ pass'.calls, call.status.isUnfinished = false := by
    cases phase : pass'.phase with
    | closed ending => exact (reached.recorded.sound p pass' found').closed_over ending phase
    | _ => rw [phase] at closed; cases closed
  have alike : m.tick.asDropped p = asDropped p ⟨dropped, m.tick.control⟩ := by
    unfold asDropped
    rw [same]
  refine {
    cut := fun call flies own => ?_
    over_for_good := fun more => ?_
    released := ⟨pass', found', finished, Pass.holds_of_over finished⟩
    references := reached.balanced
    table
    goes_on := run_asDropped alike }
  · exact leads.cut steady.reached (callsReturned_of_marks marks) flies
      fun still => reached.not_inFlight_of_closed found' closed call still own
  · obtain ⟨later, steady''⟩ := run_steady steady' more
    refine ⟨steady''.reached.not_inFlight_of_closed (later.closed found' closed) closed, ?_⟩
    refine (later.begins_of_closed found' closed).trans ?_
    rw [begins_history, begins_history]
    exact congrArg (begins p) marks

end

end Machine

/-- A panic that comes out of a pass leaves the world as if the pass had been dropped. For every run
and every move that makes a panic come out of a pass: either a handler has panicked that was asked
for its name, wherever it stood among those that the pass had found, and no call of the pass has
begun, or the pass does not isolate panics, and the panic is that of its first call to panic.
Either way all that the pass had is given back, nothing of it is ever done again, the registry
holds what it held, and every other pass goes on as if this one had been dropped there and then. -/
theorem panic_leaves_world_as_dropped (arity : Arity) (blueprints : List Blueprint)
    (moves : List Move) (move : Move) (p : PassId) (payload : Payload)
    (before : ((Machine.idle arity blueprints).run moves).world.panicOf p = none)
    (after : (((Machine.idle arity blueprints).run moves).move move).world.panicOf p =
      some payload) :
    let m := (Machine.idle arity blueprints).run moves
    move = .tick ∧ ∃ pass struck dropped outer, m.world.passes[p]? = some pass ∧
      m.tick.control = .ending (.panicked payload) outer ∧
      m.Strikes p pass payload struck dropped ∧
      (m.isOpening p = true → begins p m.world.history = []) ∧
      (∀ first second call payload', moves = first ++ second →
        ((Machine.idle arity blueprints).run first).panicking? = some (call, payload') →
        call.pass = p → m.panicking? = some (call, payload')) ∧
      m.LeavesAsDropped p struck dropped := by
  intro m
  have steady : m.Steady := (Machine.run_steady (Machine.steady_idle arity blueprints) moves).2
  obtain rfl : move = .tick := Machine.ticks_of_panic before after
  obtain ⟨pass, struck, dropped, outer, found, control, strikes⟩ :=
    Machine.strikes_of_panic steady before after
  refine ⟨rfl, pass, struck, dropped, outer, found, control, strikes, fun opening => ?_,
    fun first second call payload' split panics own => ?_, strikes.leavesAsDropped steady found⟩
  · obtain ⟨_, here, fresh, -⟩ := Machine.move_opening steady opening
    cases found.symm.trans here
    have logged := steady.reached.recorded.logged p pass found
    rw [(steady.reached.recorded.sound p pass found).fresh_empty fresh] at logged
    rw [World.begins_history]
    exact logged.nil.1
  · subst split
    exact strikes.first found (strikes.tick steady found).1 panics own

/-- A handler that lets others go first many times, one that does so once and then panics, and one
that has nothing to do. -/
def uncaughtBlueprints : List Blueprint :=
  [{ scripts := [[.linger 9]] }, { scripts := [[.linger 1, .panic (.composed "boom")]] }, {}]

/-- Two of the three calls of a pass may run at once, and panics are not caught. The second one is
about to end. -/
def uncaughtMoves : List Move := List.flatten
  [[.act (.createDispatcher (some "d") (.built [.maxConcurrent 2, .isolatePanics false])),
      .act (.createHandler (some "a") 0 none), .act (.createHandler (some "b") 1 none),
      .act (.createHandler (some "c") 2 none), .act (.register (some "d") (some "a")),
      .act (.register (some "d") (some "b")), .act (.register (some "d") (some "c")),
      .start { dispatcher := some "d" }, .start { dispatcher := some "d" }, .poll 0],
    List.replicate 17 .tick]

/-- The panic strikes while the first call is running and the third one waits for a permit. -/
theorem panic_leaves_world_as_dropped_midway :
    ((Machine.idle .simple uncaughtBlueprints).run uncaughtMoves).world.inFlight =
        [⟨0, 0⟩, ⟨0, 1⟩] ∧
      (((Machine.idle .simple uncaughtBlueprints).run uncaughtMoves).world.call? 0 2).map
        Call.status = some .queued ∧
      ∃ pass struck dropped,
        ((Machine.idle .simple uncaughtBlueprints).run uncaughtMoves).Strikes 0 pass
          (.composed "boom") struck dropped ∧
        ((Machine.idle .simple uncaughtBlueprints).run uncaughtMoves).LeavesAsDropped 0 struck
          dropped := by
  obtain ⟨-, pass, struck, dropped, outer, -, -, strikes, -, -, leaves⟩ :=
    panic_leaves_world_as_dropped .simple uncaughtBlueprints uncaughtMoves .tick 0
      (.composed "boom") (by decide +kernel) (by decide +kernel)
  exact ⟨by decide +kernel, by decide +kernel, pass, struck, dropped, strikes, leaves⟩

end Fanout
