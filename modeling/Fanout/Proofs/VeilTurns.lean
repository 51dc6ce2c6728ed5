import Fanout.Proofs.VeilActions

/-! Polling in a veiled world. A poll goes on in the same way, whatever is hidden of what calls
still have to do, if the steps that they come to are taken in the same way. -/
namespace Fanout
variable {v : Veil}

/-- Hides how the call of the innermost frame ends; a panic that no call is left to end in comes
out. -/
def Control.under (v : Veil) : Control → Control
  | ending verdict (frame :: outer) => ending (v.verdict verdict) (frame :: outer)
  | control => control

theorem Control.under_eq (endings : v.ShowsEndings) (control : Control) : control.under v = control := by
  cases control with
  | ending verdict frames =>
    cases frames with
    | nil => rfl
    | cons frame outer => simp only [Control.under, endings.verdict, id]
  | _ => rfl

def Machine.under (v : Veil) (m : Machine) : Machine := ⟨m.world.under v, m.control.under v⟩

namespace Machine
open World (shownStep)
variable (w : World) (p : PassId) (frame : Frame) (outer : List Frame)

theorem under_beginTurn : (beginTurn p outer w).under v = beginTurn p outer (w.under v) := rfl

theorem under_stay : (stay frame outer w).under v = stay frame outer (w.under v) := rfl

theorem under_pause : (pause frame outer w).under v = pause frame outer (w.under v) := by
  simp only [pause, w.getElem?_passes_under]
  cases w.passes[frame.pass]? with
  | none => rfl
  | some pass =>
    have unfinished : ∀ turn, breaksOff (pass.under v) turn = breaksOff pass turn := by
      intro turn
      simp only [breaksOff, pass.unfinished_under]
    have same : (pass.under v).lineage = pass.lineage := rfl
    simp only [Option.map_some, pass.isCrowded_under, World.waking_under, unfinished, same,
      ← World.under_rouse, apply_ite (Machine.under v)]
    rfl

theorem under_leave : (leave w p outer).under v = leave (w.under v) p outer := by
  cases outer with
  | cons frame frames => exact under_pause w frame frames
  | nil =>
    simp only [leave, World.waking_under, apply_ite (Machine.under v)]
    rfl

theorem under_deliver (error : Option DispatchError) :
    (deliver w error outer).under v = deliver (w.under v) error outer := by
  cases outer with
  | nil => rfl
  | cons frame frames =>
    simp only [deliver, World.call?_under]
    rcases w.call? frame.pass frame.call with _ | ⟨h, name, status⟩
    · rfl
    · cases status with
      | running number await rest =>
        cases await with
        | pass q propagate =>
          have told : ∀ note, (stay frame frames ((w.tell frame.pass frame.call h note).setStatus
              frame.pass frame.call (.running number .ready rest))).under v = stay frame frames
                (((w.under v).tell frame.pass frame.call h (note.under v)).setStatus frame.pass
                  frame.call (.running number .ready (rest.map (Step.under v)))) := by
            intro note
            rw [under_stay, World.under_setStatus, World.under_tell]
            rfl
          cases error with
          | none => exact told (.did "invoke" .done)
          | some e =>
            cases propagate with
            | true =>
              have shown := v.verdict_returned (some (.fail e))
              exact congrArg (fun verdict => Machine.mk _ (.ending verdict (frame :: frames))) shown
            | false => exact told (.did "invoke" (.failed e))
        | _ => rfl
      | _ => rfl

theorem under_endTurn : (endTurn w p outer).under v = endTurn (w.under v) p outer := by
  simp only [endTurn, w.getElem?_passes_under]
  cases w.passes[p]? with
  | none => rfl
  | some pass =>
    simp only [Option.map_some, pass.isOver_under, pass.error?_under, ← World.under_close,
      ← under_deliver, apply_ite (Machine.under v)]
    rfl

theorem under_choose (turn : Turn) :
    (choose w turn outer).under v = choose (w.under v) turn outer := by
  simp only [choose, World.waking_under]
  cases w.waking.next? turn.pass with
  | none => exact under_endTurn w turn.pass outer
  | some next =>
    simp only [World.call?_under]
    cases w.call? next.1.pass next.1.position with
    | none => rfl
    | some call =>
      simp only [Option.map_some, Call.under, Status.isUnfinished_under,
        apply_ite (Machine.under v)]
      rfl

theorem under_yield : (yield frame outer w).under v = yield frame outer (w.under v) := by
  simp only [yield, under_pause, World.under_wake]

theorem under_afterStep (number : Nat) (rest : Script) (taken : World × Effect) :
    (afterStep frame outer number rest taken).under v =
      afterStep frame outer number (rest.map (Step.under v)) (shownStep v taken) := by
  obtain ⟨after, effect⟩ := taken
  cases effect with
  | goOn await =>
    simp only [afterStep, under_stay, World.under_setStatus]
    rfl
  | giveWay turns =>
    simp only [afterStep, under_yield, World.under_setStatus]
    rfl
  | finish verdict => rfl

/-- What a call comes to is seen: the step that it takes next is taken in the veiled world in the
same way, and if it waits for its token, then the veil does not hide tokens. -/
structure Seen (v : Veil) (pass : Pass) (h : HandlerId) (await : Await) (rest : Script) : Prop where
  taken : ∀ step later, await = .ready → rest = step :: later →
    (w.under v).take frame.pass frame.call (pass.under v) h (step.under v) =
      shownStep v (w.take frame.pass frame.call pass h step)
  waits : await = .cancellation → v.ShowsTokens

theorem under_visitRunning {pass : Pass} {h : HandlerId} (number : Nat) {await : Await}
    {rest : Script} (seen : Seen w frame v pass h await rest) :
    (visitRunning w frame outer pass h number await rest).under v =
      visitRunning (w.under v) frame outer (pass.under v) h number await
        (rest.map (Step.under v)) := by
  have proceeds : (stay frame outer (w.setStatus frame.pass frame.call
      (.running number .ready rest))).under v = stay frame outer ((w.under v).setStatus frame.pass
        frame.call (.running number .ready (rest.map (Step.under v)))) := by
    simp only [under_stay, World.under_setStatus]
    rfl
  have waits : (pause frame outer (w.await frame.callId pass.token await)).under v =
      pause frame outer ((w.under v).await frame.callId (pass.under v).token await) := by
    simp only [under_pause, World.under_await]
    rfl
  have met : (w.under v).isMet (pass.under v).token await = w.isMet pass.token await :=
    w.isMet_under pass.token seen.waits
  cases await with
  | ready =>
    cases rest with
    | nil =>
      have shown := v.verdict_returned none
      exact congrArg (fun verdict => Machine.mk _ (.ending verdict (frame :: outer))) shown
    | cons step rest =>
      simp only [visitRunning, List.map_cons, under_afterStep, seen.taken step rest rfl rfl]
  | turns n =>
    cases n with
    | zero => simp only [visitRunning, met, ← proceeds, ← waits, apply_ite (Machine.under v)]
    | succ n =>
      simp only [visitRunning, under_yield, World.under_setStatus]
      rfl
  | pass q propagate => rfl
  | _ => simp only [visitRunning, met, ← proceeds, ← waits, apply_ite (Machine.under v)]

theorem under_visit {pass : Pass} {call : Call}
    (seen : ∀ number await rest, call.status = .running number await rest →
      Seen w frame v pass call.handler await rest) :
    (visit w frame outer pass call).under v =
      visit (w.under v) frame outer (pass.under v) (call.under v) := by
  obtain ⟨h, name, status⟩ := call
  have begins : ∀ w : World, (stay frame outer
      (w.beginCall frame.pass frame.call pass ⟨h, name, status⟩)).under v = stay frame outer
        ((w.under v).beginCall frame.pass frame.call (pass.under v)
          (Call.under v ⟨h, name, status⟩)) := by
    intro w
    rw [under_stay, World.under_beginCall]
  cases status with
  | idle =>
    have same : (pass.under v).permits = pass.permits := rfl
    simp only [visit, Call.under, Status.under, same]
    cases pass.permits with
    | none => exact begins w
    | some permits =>
      dsimp only
      cases permits.take? with
      | some left =>
        dsimp only
        rw [← World.under_setPermits]
        exact begins (w.setPermits frame.pass left)
      | none =>
        simp only [under_pause, World.under_setStatus, World.under_setPermits]
        rfl
  | queued => exact under_pause w frame outer
  | granted => exact begins w
  | running number await rest => exact under_visitRunning w frame outer number (seen _ _ _ rfl)
  | finished error => rfl
  | abandoned => rfl

theorem under_poll
    (seen : ∀ pass call number await rest, w.passes[frame.pass]? = some pass →
      w.call? frame.pass frame.call = some call → call.status = .running number await rest →
        Seen w frame v pass call.handler await rest) :
    (poll w frame outer).under v = poll (w.under v) frame outer := by
  simp only [poll, w.getElem?_passes_under, World.call?_under]
  cases found : w.passes[frame.pass]? with
  | none => rfl
  | some pass =>
    cases at_position : w.call? frame.pass frame.call with
    | none => rfl
    | some call =>
      exact under_visit w frame outer fun _ _ _ => seen pass call _ _ _ found at_position

/-- A pass is polled in the same way, but for a panic that comes out of it. -/
theorem enter_under : (enter w p outer).under v =
    ⟨(enter (w.under v) p outer).world, (enter (w.under v) p outer).control.under v⟩ := by
  simp only [enter, w.getElem?_passes_under]
  cases w.passes[p]? with
  | none => rfl
  | some pass =>
    have same : (pass.under v).phase = pass.phase := rfl
    simp only [Option.map_some, same, World.openPass_under, pass.isCrowded_under,
      pass.unfinished_under]
    cases pass.phase with
    | fresh => rcases w.openPass p pass with ⟨opened, _ | payload⟩ <;> rfl
    | running =>
      simp only [← World.under_makeDue]
      split <;> rfl
    | closed ending => rfl

section
variable (endings : v.ShowsEndings)
include endings

theorem under_conclude (verdict : Verdict) (frames : List Frame) :
    (conclude w verdict frames).under v = conclude (w.under v) verdict frames := by
  cases frames with
  | nil => cases verdict <;> rfl
  | cons frame outer =>
    simp only [conclude, w.getElem?_passes_under, World.call?_under]
    cases w.passes[frame.pass]? with
    | none => rfl
    | some pass =>
      cases w.call? frame.pass frame.call with
      | none => rfl
      | some call =>
        cases verdict with
        | returned error =>
          simp only [Option.map_some, under_beginTurn, World.under_returnCall _ endings]
          rfl
        | panicked payload =>
          have settings : (w.under v).settings (pass.under v).dispatcher =
              w.settings pass.dispatcher := rfl
          simp only [Option.map_some, settings, apply_ite (under v), under_beginTurn,
            World.under_catchPanic _ endings, ← World.under_abandon]
          simp only [under, Control.under_eq endings]
          rfl

/-- A tick does the same in the veiled world, if the call that it may poll comes to nothing that the
veil hides. -/
theorem under_tick {m : Machine}
    (seen : ∀ frame outer pass call number await rest, m.control = .polling frame outer →
      m.world.passes[frame.pass]? = some pass → m.world.call? frame.pass frame.call = some call →
        call.status = .running number await rest →
          Seen m.world frame v pass call.handler await rest) :
    m.tick.under v = (m.under v).tick := by
  obtain ⟨w, control⟩ := m
  have same : Machine.under v ⟨w, control⟩ = ⟨w.under v, control⟩ :=
    congrArg (Machine.mk _) (control.under_eq endings)
  rw [same]
  cases control with
  | entering p outer =>
    refine (enter_under w p outer).trans ?_
    rw [Control.under_eq endings]
    rfl
  | choosing turn outer => exact under_choose w outer turn
  | polling frame outer =>
    exact under_poll w frame outer fun pass call _ _ _ found at_position status =>
      seen frame outer pass call _ _ _ rfl found at_position status
  | leaving p outer => exact under_leave w p outer
  | ending verdict frames => exact under_conclude w endings verdict frames
  | settled ending => rfl

end

theorem isSettled_under (m : Machine) : (m.under v).isSettled = m.isSettled := by
  obtain ⟨w, control⟩ := m
  cases control with
  | ending verdict frames => cases frames <;> rfl
  | _ => rfl

/-- Whatever the parties do but for the steps of a poll, if it is not about tokens or these are not
hidden. -/
theorem under_move (m : Machine) {move : Move} (other : move ≠ .tick)
    (shown : ∀ action, move = .act action → action.isAboutToken = true → v.ShowsTokens) :
    (m.move move).under v = (m.under v).move move := by
  have outermost : ∀ p, (m.under v).world.isOutermost p = m.world.isOutermost p := by
    intro p
    simp only [under, World.isOutermost, World.getElem?_passes_under]
    cases m.world.passes[p]? <;> rfl
  cases move with
  | tick => exact absurd rfl other
  | act action =>
    simp only [Machine.move, under, m.world.perform_under (shown action rfl)]
    rfl
  | start summons =>
    have summoned := m.world.summon_under (v := v) none summons
    simp only [Option.map_none] at summoned
    simp only [Machine.move, under, summoned]
    cases m.world.summon none summons <;> rfl
  | poll p =>
    simp only [Machine.move, isSettled_under, outermost, apply_ite (under v)]
    rfl
  | suspend =>
    obtain ⟨w, control⟩ := m
    cases control with
    | leaving p outer => cases outer <;> rfl
    | ending verdict frames => cases frames <;> rfl
    | _ => rfl
  | drop p =>
    simp only [Machine.move, isSettled_under, outermost, apply_ite (under v)]
    simp only [under, World.under_abandon]
  | reorder d order => simp only [Machine.move, under, World.under_reorder]

end Machine
end Fanout
