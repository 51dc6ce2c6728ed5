import Fanout.Proofs.AsDropped

/-! Polling in a world of which it is told that a pass was dropped. Whatever is polled and whatever
the parties do, it goes on in the same way, and in the end the same is told. -/
namespace Fanout

@[simp] theorem Ending.dropped_asDropped (p q : PassId) :
    Ending.asDropped p q .dropped = .dropped := by
  unfold asDropped
  split <;> rfl

namespace World
variable {p : PassId} (w : World)

theorem asDropped_close (q : PassId) (ending : Ending) :
    (w.close q ending).asDropped p = (w.asDropped p).close q (ending.asDropped p q) := by
  have passes : (w.passes.modify q fun pass => { pass with phase := .closed ending }).modify p
      Pass.asDropped = (w.passes.modify p Pass.asDropped).modify q fun pass =>
        { pass with phase := .closed (ending.asDropped p q) } := by
    apply List.ext_getElem?
    intro r
    simp only [List.getElem?_modify]
    cases w.passes[r]? with
    | none => rfl
    | some pass =>
      by_cases hq : q = r
      · by_cases hp : p = r
        · simp [hq, hp, Pass.asDropped, Phase.asDropped, Ending.asDropped]
        · simp [hq, hp, Ending.asDropped]
      · by_cases hp : p = r <;> simp [hq, hp]
  simp only [close, getElem?_passes_asDropped]
  cases w.passes[q]? with
  | none => rfl
  | some pass =>
    simp only [Option.map_some, Pass.dispatcher_told, modifyPass, record]
    simp only [asDropped, passes, List.map_cons, Event.asDropped]

@[simp] theorem asDropped_abandonCall (q : PassId) (i : Nat) :
    (w.abandonCall q i).asDropped p = (w.asDropped p).abandonCall q i := by
  simp only [abandonCall, call?_asDropped]
  cases w.call? q i with
  | none => rfl
  | some call =>
    dsimp only
    split
    · rw [asDropped_release, asDropped_setStatus]
      rfl
    · split
      · rw [asDropped_release, asDropped_setStatus]
      · rfl

theorem asDropped_abandonPass (q : PassId) (ending : Ending) :
    (w.abandonPass q ending).asDropped p =
      (w.asDropped p).abandonPass q (ending.asDropped p q) := by
  simp only [abandonPass, getElem?_passes_asDropped]
  cases w.passes[q]? with
  | none => rfl
  | some pass =>
    have all : (w.abandonCalls q pass).asDropped p =
        (w.asDropped p).abandonCalls q (pass.told p q) := by
      simp only [abandonCalls, Pass.calls_told]
      exact (List.foldl_hom (asDropped p) fun w i => (w.asDropped_abandonCall q i).symm).symm
    simp only [Option.map_some, Pass.isOpen_told]
    split
    · rw [asDropped_close, all]
    · rfl

theorem descendants_asDropped (q : PassId) : (w.asDropped p).descendants q = w.descendants q := by
  simp only [descendants, getElem?_passes_asDropped, length_passes_asDropped]
  congr 1
  funext r
  cases w.passes[r]? with
  | none => rfl
  | some pass => simp only [Option.map_some, Pass.lineage_told]

theorem asDropped_abandon (q : PassId) (ending : Ending) :
    (w.abandon q ending).asDropped p = (w.asDropped p).abandon q (ending.asDropped p q) := by
  have dropped : ∀ (v : World) (r : PassId),
      (v.asDropped p).abandonPass r .dropped = (v.abandonPass r .dropped).asDropped p := by
    intro v r
    rw [asDropped_abandonPass, Ending.dropped_asDropped]
  have all : ((w.descendants q).foldl (fun w r => w.abandonPass r .dropped) w).asDropped p =
      (w.descendants q).foldl (fun w r => w.abandonPass r .dropped) (w.asDropped p) :=
    (List.foldl_hom (asDropped p) dropped).symm
  simp only [abandon, asDropped_abandonPass, descendants_asDropped, all]

/-- A pass is given up in the same way, however it is told to have ended. -/
theorem abandon_asDropped (q : PassId) (ending : Ending) :
    ((w.asDropped p).abandon q ending).asDropped p = (w.abandon q ending).asDropped p := by
  rw [asDropped_abandon, asDropped_abandon, asDropped_asDropped]

theorem close_asDropped (q : PassId) (ending : Ending) :
    ((w.asDropped p).close q ending).asDropped p = (w.close q ending).asDropped p := by
  rw [asDropped_close, asDropped_close, asDropped_asDropped]

theorem readNames_asDropped (hs : List HandlerId) :
    (w.asDropped p).readNames hs = w.readNames hs := by
  induction hs with
  | nil => rfl
  | cons h hs ih =>
    have handlers : (w.asDropped p).handlers = w.handlers := rfl
    simp only [readNames, handlers, ih]

@[simp] theorem asDropped_survey (q : PassId) (d : DispatcherId) :
    (w.survey q d).asDropped p = (w.asDropped p).survey q d := by
  have swept : ∀ (v : World) (dead : Nat),
      (v.sweep q d dead).asDropped p = (v.asDropped p).sweep q d dead := by
    intro v dead
    unfold sweep
    split <;> rfl
  have snapshot : (w.asDropped p).snapshotOf d = w.snapshotOf d := rfl
  unfold survey
  dsimp only
  rw [snapshot, ← asDropped_retainAll, ← swept]
  rfl

theorem asDropped_makeDue (q : PassId) (positions : List Nat) :
    (w.makeDue q positions).asDropped p = (w.asDropped p).makeDue q positions := rfl

theorem openPass_asDropped (q : PassId) (pass : Pass) :
    ((w.asDropped p).openPass q (pass.told p q)).1.asDropped p = (w.openPass q pass).1.asDropped p ∧
      ((w.asDropped p).openPass q (pass.told p q)).2 = (w.openPass q pass).2 := by
  have snapshot : (w.asDropped p).snapshotOf pass.dispatcher = w.snapshotOf pass.dispatcher := rfl
  simp only [openPass, Pass.dispatcher_told, ← asDropped_survey, readNames_asDropped, snapshot]
  cases (w.survey q pass.dispatcher).readNames (w.snapshotOf pass.dispatcher).live with
  | error payload =>
    refine ⟨?_, rfl⟩
    dsimp only
    rw [← asDropped_releaseAll, close_asDropped]
  | ok names =>
    refine ⟨?_, rfl⟩
    dsimp only
    have settings : ((w.survey q pass.dispatcher).asDropped p).settings pass.dispatcher =
        (w.survey q pass.dispatcher).settings pass.dispatcher := rfl
    rw [settings, ← asDropped_setCalls, ← asDropped_makeDue]
    exact asDropped_asDropped _

@[simp] theorem beginCall_asDropped (q : PassId) (i : Nat) (pass : Pass) (call : Call) :
    (w.asDropped p).beginCall q i (pass.told p q) call =
      (w.beginCall q i pass call).asDropped p := by
  have handlers : (w.asDropped p).handlers = w.handlers := rfl
  have cancelled : ∀ token, (w.asDropped p).isCancelled token = w.isCancelled token := fun _ => rfl
  have counted : (w.asDropped p).countCall call.handler =
      (w.countCall call.handler).asDropped p := rfl
  simp only [beginCall, handlers, cancelled, counted, Pass.occasion_told, Pass.token_told]
  cases w.handlers.find? call.handler with
  | none => rfl
  | some handler =>
    dsimp only
    rw [← asDropped_setStatus]
    rfl

@[simp] theorem asDropped_returnPermit (q : PassId) :
    (w.returnPermit q).asDropped p = (w.asDropped p).returnPermit q := by
  unfold returnPermit
  rw [getElem?_passes_asDropped]
  cases w.passes[q]? with
  | none => rfl
  | some pass =>
    have same : (pass.told p q).permits = pass.permits := pass.permits_told p q
    obtain ⟨d, token, occasion, lineage, phase, calls, permits⟩ := pass
    generalize hp : Pass.told p q _ = pass' at same
    obtain ⟨d', token', occasion', lineage', phase', calls', permits'⟩ := pass'
    cases same
    simp only [Option.map_some, hp]
    rcases permits with _ | ⟨free, _ | ⟨next, others⟩⟩
    · rfl
    · exact w.asDropped_setPermits q _
    · simp only [Permits.giveBack, asDropped_wake, asDropped_setStatus, asDropped_setPermits]

@[simp] theorem asDropped_retire (q : PassId) (i : Nat) (h : HandlerId) (error : Option CallError) :
    (w.retire q i h error).asDropped p = (w.asDropped p).retire q i h error := by
  simp only [retire, asDropped_returnPermit, asDropped_release, asDropped_setStatus]

theorem asDropped_returnCall (q : PassId) (i : Nat) (h : HandlerId) (error : Option CallError) :
    (w.returnCall q i h error).asDropped p = (w.asDropped p).returnCall q i h error :=
  asDropped_retire _ q i h error

theorem asDropped_catchPanic (q : PassId) (i : Nat) (d : DispatcherId) (call : Call)
    (payload : Payload) :
    (w.catchPanic q i d call payload).asDropped p =
      (w.asDropped p).catchPanic q i d call payload := asDropped_retire _ q i _ _

theorem summon_asDropped (q : PassId) (caller : Option (CallId × Pass)) (summons : Summons) :
    (w.asDropped p).summon (caller.map (Prod.map id (Pass.told p q))) summons =
      (w.summon caller summons).map (Prod.map id (asDropped p)) := by
  have dispatcher : ∀ name, (w.asDropped p).dispatcherCalled name = w.dispatcherCalled name :=
    fun _ => rfl
  have named : ∀ name, (w.asDropped p).tokenCalled name = w.tokenCalled name := fun _ => rfl
  simp only [summon, dispatcher, named, start_asDropped]
  cases w.dispatcherCalled summons.dispatcher with
  | error refusal => rfl
  | ok d =>
    rcases summons.token with _ | (_ | _ | name)
    · rfl
    · cases caller with
      | none => rfl
      | some called => simp [bind, Except.bind, pure, Except.pure, Except.map]
    · cases caller with
      | none => rfl
      | some called => simp [bind, Except.bind, pure, Except.pure, Except.map]
    · dsimp only [bind, Except.bind]
      cases caller with
      | none => cases w.tokenCalled (some name) <;> rfl
      | some called =>
        cases w.tokenCalled (some name) <;> simp [Functor.map, pure, Except.pure, Except.map]

theorem asDropped_await (call : CallId) (token : Token) (await : Await) :
    (w.await call token await).asDropped p = (w.asDropped p).await call token await := by
  unfold World.await
  split <;> rfl

theorem take_asDropped (q : PassId) (i : Nat) (pass : Pass) (h : HandlerId) (step : Step) :
    (w.asDropped p).take q i (pass.told p q) h step =
      Prod.map (asDropped p) id (w.take q i pass h step) := by
  have cancelled : ∀ token, (w.asDropped p).isCancelled token = w.isCancelled token := fun _ => rfl
  have arrived : ∀ gate, (w.asDropped p).arriveAt gate = (w.arriveAt gate).asDropped p := by
    intro gate
    unfold arriveAt
    rw [asDropped_signal]
    rfl
  cases step with
  | linger times => cases times <;> rfl
  | arrive gate expected => exact congrArg (·, _) (arrived gate)
  | failWithOccasion => simp only [take, Pass.occasion_told]; rfl
  | failBelow bound =>
    simp only [take, Pass.occasion_told]
    split <;> rfl
  | failFor sender =>
    simp only [take, Pass.occasion_told]
    split <;> rfl
  | checkToken =>
    simp only [take, Pass.token_told, cancelled]
    split <;> rfl
  | cancelToken =>
    simp only [take, Pass.token_told]
    exact congrArg (·, _) (w.asDropped_cancelToken pass.token).symm
  | showToken => simp only [take, Pass.token_told, cancelled]; rfl
  | raise summons propagate =>
    have summoned := w.summon_asDropped (p := p) q (some (⟨q, i⟩, pass)) summons
    simp only [Option.map_some, Prod.map, id] at summoned
    simp only [take, summoned]
    cases w.summon (some (⟨q, i⟩, pass)) summons <;> rfl
  | act action propagate =>
    simp only [take, perform_asDropped]
    obtain ⟨after, answer⟩ := w.perform action
    cases answer with
    | failed error => cases propagate <;> rfl
    | _ => rfl
  | _ => rfl

end World

def Machine.asDropped (p : PassId) (m : Machine) : Machine := ⟨m.world.asDropped p, m.control⟩

namespace Machine
open World
variable {p : PassId} (w : World) (q : PassId) (frame : Frame) (outer : List Frame)

theorem asDropped_asDropped (m : Machine) : (m.asDropped p).asDropped p = m.asDropped p := by
  unfold asDropped
  rw [World.asDropped_asDropped]

@[simp] theorem asDropped_pause :
    (pause frame outer w).asDropped p = pause frame outer (w.asDropped p) := by
  have waking : (w.asDropped p).waking = w.waking := rfl
  have breaks : ∀ (pass : Pass) (turn : Turn),
      breaksOff (pass.told p frame.pass) turn = breaksOff pass turn := by
    intro pass turn
    simp only [breaksOff, Pass.unfinished_told]
  simp only [pause, getElem?_passes_asDropped]
  cases w.passes[frame.pass]? with
  | none => rfl
  | some pass =>
    simp only [Option.map_some, Pass.isCrowded_told, Pass.lineage_told, waking, breaks,
      ← asDropped_rouse, apply_ite (asDropped p)]
    rfl

@[simp] theorem asDropped_yield :
    (yield frame outer w).asDropped p = yield frame outer (w.asDropped p) := by
  simp only [yield, asDropped_pause, asDropped_wake]

theorem asDropped_leave : (leave w q outer).asDropped p = leave (w.asDropped p) q outer := by
  cases outer with
  | cons frame frames => exact asDropped_pause w frame frames
  | nil =>
    have waking : (w.asDropped p).waking = w.waking := rfl
    simp only [leave, waking, apply_ite (asDropped p)]
    rfl

theorem asDropped_deliver (error : Option DispatchError) :
    (deliver w error outer).asDropped p = deliver (w.asDropped p) error outer := by
  cases outer with
  | nil => rfl
  | cons frame frames =>
    simp only [deliver, call?_asDropped]
    rcases w.call? frame.pass frame.call with _ | ⟨h, name, status⟩
    · rfl
    · have goesOn : ∀ (note : Note) (status : Status),
          (stay frame frames ((w.tell frame.pass frame.call h note).setStatus frame.pass frame.call
            status)).asDropped p = stay frame frames
              (((w.asDropped p).tell frame.pass frame.call h note).setStatus frame.pass frame.call
                status) := by
        intro note status
        simp only [stay, asDropped, asDropped_setStatus]
        rfl
      cases status with
      | running number await rest =>
        cases await with
        | pass r propagate =>
          cases error with
          | none => exact goesOn _ _
          | some e =>
            cases propagate with
            | true => rfl
            | false => exact goesOn _ _
        | _ => rfl
      | _ => rfl

theorem asDropped_afterStep (number : Nat) (rest : Script) (taken : World × Effect) :
    (afterStep frame outer number rest taken).asDropped p =
      afterStep frame outer number rest (Prod.map (World.asDropped p) id taken) := by
  obtain ⟨after, effect⟩ := taken
  cases effect with
  | goOn await =>
    simp only [afterStep, stay, asDropped, Prod.map, id, asDropped_setStatus]
  | giveWay turns => simp only [afterStep, asDropped_yield, Prod.map, id, asDropped_setStatus]
  | finish verdict => rfl

theorem asDropped_visitRunning (pass : Pass) (h : HandlerId) (number : Nat) (await : Await)
    (rest : Script) :
    (visitRunning w frame outer pass h number await rest).asDropped p =
      visitRunning (w.asDropped p) frame outer (pass.told p frame.pass) h number await rest := by
  have met : ∀ token, (w.asDropped p).isMet token await = w.isMet token await := by
    intro token
    cases await <;> rfl
  have waits : (if w.isMet pass.token await then
        stay frame outer (w.setStatus frame.pass frame.call (.running number .ready rest))
      else pause frame outer (w.await frame.callId pass.token await)).asDropped p =
      if (w.asDropped p).isMet (pass.told p frame.pass).token await then
        stay frame outer ((w.asDropped p).setStatus frame.pass frame.call
          (.running number .ready rest))
      else pause frame outer ((w.asDropped p).await frame.callId (pass.told p frame.pass).token
        await) := by
    simp only [met, Pass.token_told, apply_ite (asDropped p), asDropped_pause, asDropped_await]
    simp only [stay, asDropped, asDropped_setStatus]
  cases await with
  | ready =>
    cases rest with
    | nil => rfl
    | cons step rest => simp only [visitRunning, asDropped_afterStep, take_asDropped]
  | turns n =>
    cases n with
    | zero => exact waits
    | succ n => simp only [visitRunning, asDropped_yield, asDropped_setStatus]
  | pass r propagate => rfl
  | _ => exact waits

theorem asDropped_visit (pass : Pass) (call : Call) :
    (visit w frame outer pass call).asDropped p =
      visit (w.asDropped p) frame outer (pass.told p frame.pass) call := by
  have begins : ∀ w : World, (stay frame outer
      (w.beginCall frame.pass frame.call pass call)).asDropped p = stay frame outer
        ((w.asDropped p).beginCall frame.pass frame.call (pass.told p frame.pass) call) := by
    intro w
    simp only [stay, asDropped, beginCall_asDropped]
  obtain ⟨h, name, status⟩ := call
  cases status with
  | idle =>
    simp only [visit, Pass.permits_told]
    cases pass.permits with
    | none => exact begins w
    | some permits =>
      dsimp only
      cases permits.take? with
      | some left =>
        dsimp only
        rw [begins, asDropped_setPermits]
      | none => simp only [asDropped_pause, asDropped_setStatus, asDropped_setPermits]
  | queued => exact asDropped_pause w frame outer
  | granted => exact begins w
  | running number await rest =>
    exact asDropped_visitRunning w frame outer pass h number await rest
  | finished error => rfl
  | abandoned => rfl

theorem asDropped_poll : (poll w frame outer).asDropped p = poll (w.asDropped p) frame outer := by
  simp only [poll, getElem?_passes_asDropped, call?_asDropped]
  cases w.passes[frame.pass]? with
  | none => rfl
  | some pass =>
    cases w.call? frame.pass frame.call with
    | none => rfl
    | some call => exact asDropped_visit w frame outer pass call

theorem endTurn_asDropped :
    (endTurn (w.asDropped p) q outer).asDropped p = (endTurn w q outer).asDropped p := by
  simp only [endTurn, getElem?_passes_asDropped]
  cases w.passes[q]? with
  | none => exact (stuck w).asDropped_asDropped
  | some pass =>
    simp only [Option.map_some, Pass.isOver_told, Pass.error?_told]
    split
    · rw [asDropped_deliver, asDropped_deliver, close_asDropped]
    · exact asDropped_asDropped ⟨w, .leaving q outer⟩

theorem choose_asDropped (turn : Turn) :
    (choose (w.asDropped p) turn outer).asDropped p = (choose w turn outer).asDropped p := by
  have waking : (w.asDropped p).waking = w.waking := rfl
  have left : ∀ (waking : Waking) (control : Control),
      asDropped p ⟨(w.asDropped p).setWaking waking, control⟩ =
        asDropped p ⟨w.setWaking waking, control⟩ :=
    fun waking control => asDropped_asDropped ⟨w.setWaking waking, control⟩
  simp only [choose, waking]
  cases w.waking.next? turn.pass with
  | none => exact endTurn_asDropped w turn.pass outer
  | some next =>
    simp only [call?_asDropped]
    cases w.call? next.1.pass next.1.position with
    | none => exact left _ _
    | some call =>
      dsimp only
      split
      · exact left _ _
      · exact left _ _

theorem beginTurn_asDropped {w v : World} (same : v.asDropped p = w.asDropped p) :
    (beginTurn q outer v).asDropped p = (beginTurn q outer w).asDropped p := by
  have waking : v.waking = w.waking := by
    have told : (v.asDropped p).waking = (w.asDropped p).waking := congrArg World.waking same
    exact told
  have answered : ∀ waking, (v.setWaking waking).asDropped p = (w.setWaking waking).asDropped p :=
    fun waking => congrArg (World.setWaking · waking) same
  simp only [beginTurn, asDropped, waking, answered]

theorem enter_asDropped :
    (enter (w.asDropped p) q outer).asDropped p = (enter w q outer).asDropped p := by
  simp only [enter, getElem?_passes_asDropped]
  cases w.passes[q]? with
  | none => exact (stuck w).asDropped_asDropped
  | some pass =>
    simp only [Option.map_some]
    cases phase : pass.phase with
    | fresh =>
      have told : pass.told p q = pass := Pass.told_of_isOpen p q (by rw [phase]; rfl)
      obtain ⟨world, out⟩ := w.openPass_asDropped (p := p) q pass
      simp only [told, phase] at world out ⊢
      generalize (w.asDropped p).openPass q pass = opened at world out
      generalize w.openPass q pass = opened' at world out
      obtain ⟨v, panic⟩ := opened
      obtain ⟨v', panic'⟩ := opened'
      obtain rfl : panic = panic' := out
      cases panic with
      | none => exact beginTurn_asDropped q outer world
      | some payload => exact congrArg (Machine.mk · _) world
    | running =>
      have told : pass.told p q = pass := Pass.told_of_isOpen p q (by rw [phase]; rfl)
      simp only [told, phase]
      split
      · exact beginTurn_asDropped q outer w.asDropped_asDropped
      · exact beginTurn_asDropped q outer (w.makeDue q pass.unfinished).asDropped_asDropped
    | closed ending =>
      have closed : (pass.told p q).phase.isOpen = false := by rw [Pass.isOpen_told, phase]; rfl
      cases told : (pass.told p q).phase with
      | closed ending' => exact (stuck w).asDropped_asDropped
      | _ => simp [told, Phase.isOpen] at closed

theorem conclude_asDropped (verdict : Verdict) (frames : List Frame) :
    (conclude (w.asDropped p) verdict frames).asDropped p =
      (conclude w verdict frames).asDropped p := by
  have stuck_again : (stuck (w.asDropped p)).asDropped p = (stuck w).asDropped p :=
    (stuck w).asDropped_asDropped
  cases frames with
  | nil =>
    cases verdict with
    | panicked payload => exact asDropped_asDropped ⟨w, .settled (some (.panicked payload))⟩
    | returned error => exact stuck_again
  | cons frame outer =>
    simp only [conclude, getElem?_passes_asDropped, call?_asDropped]
    cases w.passes[frame.pass]? with
    | none => exact stuck_again
    | some pass =>
      cases w.call? frame.pass frame.call with
      | none => exact stuck_again
      | some call =>
        cases verdict with
        | returned error =>
          refine beginTurn_asDropped frame.pass outer ?_
          rw [← asDropped_returnCall]
          exact World.asDropped_asDropped _
        | panicked payload =>
          have settings : (w.asDropped p).settings (pass.told p frame.pass).dispatcher =
              w.settings pass.dispatcher := by
            rw [Pass.dispatcher_told]
            rfl
          simp only [Option.map_some, settings]
          split
          · refine beginTurn_asDropped frame.pass outer ?_
            rw [Pass.dispatcher_told, ← asDropped_catchPanic]
            exact World.asDropped_asDropped _
          · exact congrArg (Machine.mk · _) (w.abandon_asDropped frame.pass _)

theorem tick_asDropped (m : Machine) : (m.asDropped p).tick.asDropped p = m.tick.asDropped p := by
  have again : ∀ m : Machine, (m.asDropped p).asDropped p = m.asDropped p := asDropped_asDropped
  obtain ⟨w, control⟩ := m
  cases control with
  | entering q outer => exact enter_asDropped w q outer
  | choosing turn outer => exact choose_asDropped w outer turn
  | polling frame outer =>
    exact (congrArg (asDropped p) (asDropped_poll w frame outer)).symm.trans (again _)
  | leaving q outer =>
    exact (congrArg (asDropped p) (asDropped_leave w q outer)).symm.trans (again _)
  | ending verdict frames => exact conclude_asDropped w verdict frames
  | settled ending => exact again ⟨w, .settled ending⟩

theorem move_asDropped (m : Machine) (move : Move) :
    ((m.asDropped p).move move).asDropped p = (m.move move).asDropped p := by
  have again : ∀ m : Machine, (m.asDropped p).asDropped p = m.asDropped p := asDropped_asDropped
  have outermost : ∀ q, (m.asDropped p).world.isOutermost q = m.world.isOutermost q := by
    intro q
    simp only [asDropped, isOutermost, getElem?_passes_asDropped]
    cases m.world.passes[q]? with
    | none => rfl
    | some pass => simp only [Option.map_some, Pass.lineage_told]
  have settled : (m.asDropped p).isSettled = m.isSettled := rfl
  cases move with
  | tick => exact tick_asDropped m
  | act action =>
    have same : (m.asDropped p).move (.act action) = (m.move (.act action)).asDropped p := by
      simp only [Machine.move, asDropped, perform_asDropped]
      rfl
    rw [same, again]
  | start summons =>
    have summoned := m.world.summon_asDropped (p := p) 0 none summons
    have same : (m.asDropped p).move (.start summons) = (m.move (.start summons)).asDropped p := by
      simp only [Option.map_none] at summoned
      simp only [Machine.move, asDropped, summoned]
      cases m.world.summon none summons <;> rfl
    rw [same, again]
  | poll q =>
    have same : (m.asDropped p).move (.poll q) = (m.move (.poll q)).asDropped p := by
      simp only [Machine.move, settled, outermost, apply_ite (asDropped p)]
      rfl
    rw [same, again]
  | suspend =>
    have same : (m.asDropped p).move .suspend = (m.move .suspend).asDropped p := by
      obtain ⟨w, control⟩ := m
      cases control with
      | leaving q outer => cases outer <;> rfl
      | _ => rfl
    rw [same, again]
  | drop q =>
    simp only [Machine.move, settled, outermost]
    split
    · exact congrArg (Machine.mk · _) (m.world.abandon_asDropped q .dropped)
    · exact again m
  | reorder d order =>
    have same : (m.asDropped p).move (.reorder d order) =
        (m.move (.reorder d order)).asDropped p := by
      simp only [Machine.move, asDropped, asDropped_reorder]
    rw [same, again]

/-- However a run goes on, it goes on in the same way whatever came out of a pass that is closed. -/
theorem run_asDropped {m m' : Machine} (same : m.asDropped p = m'.asDropped p) (moves : List Move) :
    (m.run moves).asDropped p = (m'.run moves).asDropped p := by
  induction moves generalizing m m' with
  | nil => exact same
  | cons move moves ih =>
    refine ih ?_
    rw [← move_asDropped m move, same, move_asDropped m' move]

end Machine
end Fanout
