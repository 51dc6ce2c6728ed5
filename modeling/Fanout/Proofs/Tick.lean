import Fanout.Proofs.Polling

/-! Every tick consists of changes, after the opening of a pass if that is polled for the first
time, and leaves the machine positioned. Each part of a tick is shown to do so in a world that may
be reached. -/
namespace Fanout.Machine
open World
variable {w : World} {p : PassId} {frame : Frame} {outer : List Frame}

theorem settled_follows (w : World) (ending : Option Ending) : Follows w ⟨w, .settled ending⟩ :=
  ⟨.refl, trivial⟩

theorem beginTurn_follows (h : Turning w.passes p outer) : Follows w (beginTurn p outer w) :=
  ⟨(Deed.setWaking w _).changes, h⟩

theorem pause_follows (h : Turning w.passes frame.pass outer) :
    Follows w (pause frame outer w) := by
  obtain ⟨pass, found, -⟩ := h.running
  have crowded : ∀ turn : Turn, turn.pass = frame.pass → Follows w
      (if breaksOff pass turn then ⟨w.rouse pass.lineage, .leaving frame.pass outer⟩
        else ⟨w, .choosing turn outer⟩) := by
    intro turn same
    split
    · obtain ⟨waking, roused⟩ := rouse_eq w pass.lineage
      rw [roused]
      exact ⟨(Deed.setWaking w waking).changes, h.stacked⟩
    · exact ⟨.refl, by rw [← same] at h; exact h⟩
  unfold pause
  simp only [found]
  split
  · exact crowded _ rfl
  · exact ⟨.refl, h⟩

theorem yield_follows (h : Turning w.passes frame.pass outer) :
    Follows w (yield frame outer w) := by
  obtain ⟨waking, woken⟩ := wake_eq w frame.callId
  unfold yield
  rw [woken]
  have paused : Follows (w.setWaking waking) (pause frame outer (w.setWaking waking)) :=
    pause_follows h
  exact paused.after (Deed.setWaking w waking).changes

theorem leave_follows (h : Stacked w.passes p outer) : Follows w (leave w p outer) := by
  cases outer with
  | nil =>
    unfold leave
    dsimp only
    split
    · exact ⟨(Deed.setWaking w _).changes, .outermost p⟩
    · exact settled_follows w none
  | cons frame frames => exact pause_follows h.concluding.1

section
variable {pass : Pass} {call : Call} {number : Nat} {before : Await} {todo : Script}

theorem proceed_turning (reached : w.Reached) (h : Turning w.passes frame.pass outer)
    (call_of : w.IsCall frame.pass frame.call pass call)
    (begun : call.status = .running number before todo) (after : Await) (rest : Script)
    (waits : ∀ q propagate, after = .pass q propagate → w.IsInner frame.pass pass frame.call q) :
    w.Changes (w.setStatus frame.pass frame.call (.running number after rest)) ∧
      Turning (w.setStatus frame.pass frame.call (.running number after rest)).passes
        frame.pass outer := by
  refine ⟨.single (.proceed call_of begun after rest waits), ?_⟩
  rw [passes_setStatus call_of.found]
  exact h.set reached.linked call_of.running

theorem goOn_follows (reached : w.Reached) (h : Turning w.passes frame.pass outer)
    (call_of : w.IsCall frame.pass frame.call pass call)
    (begun : call.status = .running number before todo) (after : Await) (rest : Script)
    (waits : ∀ q propagate, after = .pass q propagate → w.IsInner frame.pass pass frame.call q) :
    Follows w (stay frame outer
      (w.setStatus frame.pass frame.call (.running number after rest))) :=
  have ⟨changes, turning⟩ := proceed_turning reached h call_of begun after rest waits
  ⟨changes, turning⟩

theorem giveWay_follows (reached : w.Reached) (h : Turning w.passes frame.pass outer)
    (call_of : w.IsCall frame.pass frame.call pass call)
    (begun : call.status = .running number before todo) (turns : Nat) (rest : Script) :
    Follows w (yield frame outer
      (w.setStatus frame.pass frame.call (.running number (.turns turns) rest))) := by
  obtain ⟨changes, turning⟩ := proceed_turning reached h call_of begun (.turns turns) rest (by simp)
  exact (yield_follows turning).after changes

theorem afterStep_follows (reached : w.Reached) (h : Turning w.passes frame.pass outer)
    (call_of : w.IsCall frame.pass frame.call pass call)
    (begun : call.status = .running number before todo) (rest : Script) {result : World × Effect}
    (taken : Taken w frame.pass frame.call pass result) :
    Follows w (afterStep frame outer number rest result) := by
  obtain ⟨after, effect⟩ := result
  have reached_after : after.Reached := reached.leads taken.changes.leads
  have turning : Turning after.passes frame.pass outer := h.mono taken.kept
  have call_after : after.IsCall frame.pass frame.call pass call :=
    ⟨taken.kept _ _ call_of.found, call_of.running, call_of.at_position⟩
  cases effect with
  | goOn await =>
    have waits : ∀ q propagate, await = .pass q propagate →
        after.IsInner frame.pass pass frame.call q :=
      fun q propagate hq => taken.inner q propagate (by rw [hq])
    have on := goOn_follows reached_after turning call_after begun await rest waits
    exact on.after taken.changes
  | giveWay turns =>
    have way := giveWay_follows reached_after turning call_after begun turns rest
    exact way.after taken.changes
  | finish verdict =>
    refine ⟨taken.changes, turning, pass, call, call_after.found, call_after.at_position, ?_⟩
    rw [begun]
    rfl

theorem visitRunning_follows (reached : w.Reached) (h : Turning w.passes frame.pass outer)
    (call_of : w.IsCall frame.pass frame.call pass call)
    (begun : call.status = .running number before todo) :
    Follows w (visitRunning w frame outer pass call.handler number before todo) := by
  have busy : IsBusy w.passes frame.pass frame.call :=
    ⟨pass, call, call_of.found, call_of.at_position, by rw [begun]; rfl⟩
  -- what is neither ready nor a pass is waited for in one and the same way
  have waiting : ∀ (met : Bool) (signal : Await), Follows w
      (if met then
        stay frame outer (w.setStatus frame.pass frame.call (.running number .ready todo))
      else pause frame outer (w.await frame.callId pass.token signal)) := by
    intro met signal
    split
    · exact goOn_follows reached h call_of begun .ready todo (by simp)
    · have deed := Deed.await w frame.callId pass.token signal
      exact (pause_follows (deed.passes.symm ▸ h)).after deed.changes
  unfold visitRunning
  split
  · split
    · exact afterStep_follows reached h call_of begun _ (take_taken call_of.found _ _)
    · exact ⟨.refl, h, busy⟩
  · exact giveWay_follows reached h call_of begun _ _
  · exact ⟨.refl, .within call_of.found call_of.running
      ⟨call, _, _, _, call_of.at_position, begun⟩ h.stacked⟩
  · exact waiting _ _

end

section
variable {pass : Pass} {call : Call}

theorem begin_follows (reached : w.Reached) (h : Turning w.passes frame.pass outer)
    (call_of : w.IsCall frame.pass frame.call pass call) {admitted : World}
    (admits : w.Admits frame.pass pass call admitted) :
    Follows w (stay frame outer (admitted.beginCall frame.pass frame.call pass call)) := by
  obtain ⟨mark, pass', -, running, passes, -⟩ := beginCall_becomes call_of admits False
  refine ⟨.single (.begin call_of admits), ?_⟩
  show Turning (admitted.beginCall frame.pass frame.call pass call).passes frame.pass outer
  rw [passes]
  exact h.set reached.linked running

theorem queue_follows (reached : w.Reached) (h : Turning w.passes frame.pass outer)
    (call_of : w.IsCall frame.pass frame.call pass call) (idle : call.status = .idle)
    {permits : Permits} (limited : pass.permits = some permits) (short : permits.take? = none) :
    Follows w (pause frame outer ((w.setPermits frame.pass (permits.enqueue frame.call)).setStatus
      frame.pass frame.call .queued)) := by
  have first := passes_setPermits call_of.found (permits.enqueue frame.call)
  have turning : Turning ((w.setPermits frame.pass (permits.enqueue frame.call)).setStatus
      frame.pass frame.call .queued).passes frame.pass outer := by
    rw [passes_setStatus (first ▸ getElem?_set_of_some _ call_of.found), first, List.set_set]
    exact h.set reached.linked call_of.running
  exact (pause_follows turning).after (.single (.queue call_of idle limited short))

theorem visit_follows (reached : w.Reached) (h : Turning w.passes frame.pass outer)
    (call_of : w.IsCall frame.pass frame.call pass call) :
    Follows w (visit w frame outer pass call) := by
  unfold visit
  cases status : call.status with
  | idle =>
    cases limited : pass.permits with
    | none => exact begin_follows reached h call_of (.freely status limited)
    | some permits =>
      dsimp only
      cases taken : permits.take? with
      | none => exact queue_follows reached h call_of status limited taken
      | some left => exact begin_follows reached h call_of (.taking status limited taken)
  | queued => exact pause_follows h
  | granted => exact begin_follows reached h call_of (.granted status)
  | running number await rest => exact visitRunning_follows reached h call_of status
  | finished error => exact settled_follows w none
  | abandoned => exact settled_follows w none

end

theorem poll_follows (reached : w.Reached) (h : Turning w.passes frame.pass outer) :
    Follows w (poll w frame outer) := by
  obtain ⟨pass, found, running⟩ := h.running
  unfold poll
  split
  · rename_i pass' call found' hc
    rw [found, Option.some.injEq] at found'
    subst found'
    exact visit_follows reached h (.of_call? found running hc)
  · exact settled_follows w none

theorem deliver_follows (reached : w.Reached) (h : Stacked w.passes p outer)
    (error : Option DispatchError) : Follows w (deliver w error outer) := by
  cases outer with
  | nil => exact settled_follows w _
  | cons frame frames =>
    obtain ⟨turning, -⟩ := h.concluding
    obtain ⟨pass, found, running⟩ := turning.running
    unfold deliver
    dsimp only
    split
    · rename_i handler name number q propagate rest hc
      split
      · exact ⟨.refl, h.concluding⟩
      · have call_of := IsCall.of_call? found running hc
        have told := Deed.tell (w := w) frame.pass frame.call handler
          (.did "invoke" (Ending.completed error).answer)
        have told_call : (w.tell frame.pass frame.call handler
            (.did "invoke" (Ending.completed error).answer)).IsCall frame.pass frame.call pass _ :=
          ⟨call_of.found, call_of.running, call_of.at_position⟩
        have on := goOn_follows (reached.leads told.changes.leads) turning told_call rfl .ready rest
          (by simp)
        exact on.after told.changes
    · exact settled_follows w none

theorem endTurn_follows (reached : w.Reached) (h : Turning w.passes p outer) :
    Follows w (endTurn w p outer) := by
  obtain ⟨pass, found, running⟩ := h.running
  unfold endTurn
  simp only [found]
  split
  · rename_i finished
    have change : w.Changes (w.close p (.completed pass.error?)) :=
      .single (.complete found running finished)
    have stacked : Stacked (w.close p (.completed pass.error?)).passes p outer := by
      rw [passes_close found]
      exact h.stacked.set reached.linked _
    exact (deliver_follows (reached.leads change.leads) stacked _).after change
  · exact ⟨.refl, h.stacked⟩

theorem choose_follows (reached : w.Reached) {turn : Turn} (h : Turning w.passes turn.pass outer) :
    Follows w (choose w turn outer) := by
  unfold choose
  split
  · rename_i call left _
    split
    · split
      · exact ⟨(Deed.setWaking w left).changes, h⟩
      · exact ⟨(Deed.setWaking w left).changes, h⟩
    · exact ⟨(Deed.setWaking w left).changes, h⟩
  · exact endTurn_follows reached h

/-- After a pass and all that it waits for are given up, the frames around it stay. -/
theorem abandon_follows (reached : w.Reached) (h : Stacked w.passes p outer) {payload : Payload}
    (givesUp : w.GivesUp p (.panicked payload)) :
    Follows w ⟨w.abandon p (.panicked payload), .ending (.panicked payload) outer⟩ := by
  have stacked : Stacked (w.abandon p (.panicked payload)).passes p outer :=
    h.unmoved reached.linked fun q hq => passes_abandon_of_lt reached.linked hq _
  exact ⟨changes_abandon w p givesUp, stacked.concluding⟩

theorem conclude_follows (reached : w.Reached) {frames : List Frame}
    (h : Concluding w.passes frames) (verdict : Verdict) :
    Follows w (conclude w verdict frames) := by
  cases frames with
  | nil =>
    unfold conclude
    cases verdict <;> exact settled_follows w _
  | cons frame outer =>
    obtain ⟨turning, pass, call, found, at_position, busy⟩ := h
    have running := turning.phase found
    have call_of : w.IsCall frame.pass frame.call pass call := ⟨found, running, at_position⟩
    unfold conclude
    simp only [found, call_of.call?]
    cases verdict with
    | returned error =>
      have ended : Turning (w.returnCall frame.pass frame.call call.handler error).passes
          frame.pass outer := by
        rw [passes_returnCall found]
        exact turning.set reached.linked ((pass.retire_same _ _).2.2.trans running)
      exact (beginTurn_follows ended).after (.single (.returnCall call_of busy error))
    | panicked payload =>
      dsimp only
      split
      · rename_i isolated
        have ended : Turning
            (w.catchPanic frame.pass frame.call pass.dispatcher call payload).passes
            frame.pass outer := by
          rw [passes_catchPanic found]
          exact turning.set reached.linked ((pass.retire_same _ _).2.2.trans running)
        exact (beginTurn_follows ended).after (.single (.catchPanic call_of busy isolated payload))
      · rename_i unisolated
        refine abandon_follows reached turning.stacked ⟨by simp, fun other _ same _ => ?_⟩
        rw [found, Option.some.injEq] at same
        exact same ▸ Bool.eq_false_of_not_eq_true unisolated

theorem enter_fresh (reached : w.Reached) (h : Stacked w.passes p outer) {pass : Pass}
    (found : w.passes[p]? = some pass) (fresh : pass.phase = .fresh) :
    Follows (w.openPass p pass).1 (enter w p outer) := by
  unfold enter
  simp only [found, fresh]
  cases read : (w.survey p pass.dispatcher).readNames (w.snapshotOf pass.dispatcher).live with
  | error payload =>
    have result : w.openPass p pass = ((w.openPass p pass).1, some payload) := by
      rw [openPass_error read]
    have stacked : Stacked (w.openPass p pass).1.passes p outer :=
      passes_openPass_error found read ▸ h.set reached.linked _
    rw [result]
    exact ⟨.refl, stacked.concluding⟩
  | ok names =>
    have result : w.openPass p pass = ((w.openPass p pass).1, none) := by
      rw [openPass_ok read]
    have passes := passes_openPass_ok found read
    have turning : Turning (w.openPass p pass).1.passes p outer :=
      ⟨⟨_, passes ▸ getElem?_set_of_some _ found, rfl⟩, passes ▸ h.set reached.linked _⟩
    rw [result]
    exact beginTurn_follows turning

theorem enter_follows (h : Stacked w.passes p outer) (opened : w.isFresh p = false) :
    Follows w (enter w p outer) := by
  unfold enter
  cases found : w.passes[p]? with
  | none => exact settled_follows w none
  | some pass =>
    dsimp only
    split
    · rename_i fresh
      simp [isFresh, found, fresh] at opened
    · rename_i running
      have turning : Turning w.passes p outer := ⟨⟨pass, found, running⟩, h⟩
      split
      · exact beginTurn_follows turning
      · have due : Follows (w.makeDue p pass.unfinished)
            (beginTurn p outer (w.makeDue p pass.unfinished)) := beginTurn_follows turning
        exact due.after (Deed.setWaking w _).changes
    · exact settled_follows w none

/-- A tick is the opening of a pass or nothing of the kind, and changes. -/
theorem tick_follows {m : Machine} (reached : m.world.Reached) (h : m.Positioned) :
    (∃ p pass, m.isOpening p = true ∧ m.world.passes[p]? = some pass ∧ pass.phase = .fresh ∧
      Follows (m.world.openPass p pass).1 m.tick) ∨
    ((∀ p, m.isOpening p = false) ∧ Follows m.world m.tick) := by
  obtain ⟨w, control⟩ := m
  cases control with
  | entering p outer =>
    cases fresh : w.isFresh p with
    | false =>
      refine .inr ⟨fun q => ?_, enter_follows h fresh⟩
      by_cases hq : p = q
      · subst hq
        simp [isOpening, fresh]
      · simp [isOpening, hq]
    | true =>
      have phase := fresh
      unfold isFresh at phase
      split at phase
      · rename_i pass found
        have phase := of_decide_eq_true phase
        exact .inl ⟨p, pass, by simp [isOpening, fresh], found, phase,
          enter_fresh reached h found phase⟩
      · cases phase
  | choosing turn outer => exact .inr ⟨fun _ => rfl, choose_follows reached h⟩
  | polling frame outer => exact .inr ⟨fun _ => rfl, poll_follows reached h⟩
  | leaving p outer => exact .inr ⟨fun _ => rfl, leave_follows h⟩
  | ending verdict frames => exact .inr ⟨fun _ => rfl, conclude_follows reached h verdict⟩
  | settled ending => exact .inr ⟨fun _ => rfl, settled_follows w ending⟩

end Fanout.Machine
