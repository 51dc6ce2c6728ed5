import Fanout.Proofs.Cancellation

/-! What a tick can do. Most ticks are calm: no event is raised in them, no call begins and no panic
comes out of a pass. Every other tick does one of four things. It begins one call, a handler raises
an event in it, or a panic comes out of a pass, which is that of a handler asked for its name in the
first poll, or that of a call whose pass does not isolate panics. -/
namespace Fanout

def Event.isBeginning : Event → Bool
  | began _ _ _ _ _ _ => true
  | _ => false

/-- A pass still carries what it carried, and no panic came out of it since, unless it may break. -/
structure Pass.Calm (mayBreak : Prop) (pass pass' : Pass) : Prop where
  occasion : pass'.occasion = pass.occasion
  token : pass'.token = pass.token
  panicked : ∀ payload, pass'.phase = .closed (.panicked payload) →
    mayBreak ∨ pass.phase = .closed (.panicked payload)

theorem Pass.Calm.refl (mayBreak : Prop) (pass : Pass) : pass.Calm mayBreak pass :=
  ⟨rfl, rfl, fun _ => .inr⟩

theorem Pass.Calm.setCall (mayBreak : Prop) (pass : Pass) (i : Nat) (status : Status) :
    pass.Calm mayBreak (pass.setCall i status) := ⟨rfl, rfl, fun _ => .inr⟩

namespace World

/-- No pass was started and no call began, and no panic came out of a pass but of those that may
break. -/
structure Calm (mayBreak : PassId → Prop) (w w' : World) : Prop where
  arity : w'.arity = w.arity
  begun : w'.history.filter Event.isBeginning = w.history.filter Event.isBeginning
  passes : ∀ (p : PassId) (pass' : Pass), w'.passes[p]? = some pass' →
    ∃ pass : Pass, w.passes[p]? = some pass ∧ pass.Calm (mayBreak p) pass'

namespace Calm
variable {mayBreak : PassId → Prop} {w w' w'' : World}

theorem of_eq (arity : w'.arity = w.arity) (passes : w'.passes = w.passes)
    (history : w'.history = w.history) : w.Calm mayBreak w' :=
  ⟨arity, by rw [history], fun _ pass' found => ⟨pass', passes ▸ found, .refl _ _⟩⟩

theorem refl (w : World) : w.Calm mayBreak w := of_eq rfl rfl rfl

theorem trans (h : w.Calm mayBreak w') (h' : w'.Calm mayBreak w'') : w.Calm mayBreak w'' := by
  refine ⟨h'.arity.trans h.arity, h'.begun.trans h.begun, fun p pass'' found => ?_⟩
  obtain ⟨pass', found', calm'⟩ := h'.passes p pass'' found
  obtain ⟨pass, found, calm⟩ := h.passes p pass' found'
  refine ⟨pass, found, calm'.occasion.trans calm.occasion, calm'.token.trans calm.token, ?_⟩
  exact fun payload panicked => (calm'.panicked payload panicked).elim .inl (calm.panicked payload)

theorem of_record {event : Event} (arity : w'.arity = w.arity) (passes : w'.passes = w.passes)
    (history : w'.history = event :: w.history) (different : event.isBeginning = false) :
    w.Calm mayBreak w' :=
  ⟨arity, by rw [history, List.filter_cons_of_neg (by simp [different])],
    fun _ pass' found => ⟨pass', passes ▸ found, .refl _ _⟩⟩

theorem record (w : World) {event : Event} (different : event.isBeginning = false) :
    w.Calm mayBreak (w.record event) := of_record rfl rfl rfl different

theorem modifyPass (w : World) (p : PassId) {f : Pass → Pass}
    (calm : ∀ pass : Pass, pass.Calm (mayBreak p) (f pass)) :
    w.Calm mayBreak (w.modifyPass p f) := by
  refine ⟨rfl, rfl, fun q pass' found => ?_⟩
  simp only [World.modifyPass, List.getElem?_modify] at found
  obtain ⟨pass, before, rfl⟩ := Option.map_eq_some_iff.mp found
  refine ⟨pass, before, ?_⟩
  split
  · rename_i same
    exact same ▸ calm pass
  · exact .refl _ _

theorem foldl {α : Type} (f : World → α → World) (step : ∀ w a, World.Calm mayBreak w (f w a))
    (l : List α) (w : World) : w.Calm mayBreak (l.foldl f w) := by
  induction l generalizing w with
  | nil => exact .refl w
  | cons a l ih => exact (step w a).trans (ih _)

theorem setWaking (w : World) (waking : Waking) : w.Calm mayBreak (w.setWaking waking) :=
  of_eq rfl rfl rfl

theorem modifyHandler (w : World) (h : HandlerId) (f : Handler → Handler) :
    w.Calm mayBreak (w.modifyHandler h f) := of_eq rfl rfl rfl

theorem release (w : World) (h : HandlerId) : w.Calm mayBreak (w.release h) := by
  unfold World.release
  split
  · exact (modifyHandler w h _).trans (record _ rfl)
  · exact modifyHandler w h _

theorem retainAll (w : World) (hs : List HandlerId) : w.Calm mayBreak (w.retainAll hs) :=
  foldl _ (fun w h => modifyHandler w h _) hs w

theorem releaseAll (w : World) (hs : List HandlerId) : w.Calm mayBreak (w.releaseAll hs) :=
  foldl _ release hs w

theorem setStatus (w : World) (p : PassId) (i : Nat) (status : Status) :
    w.Calm mayBreak (w.setStatus p i status) := modifyPass w p fun pass => .setCall _ pass i status

theorem setPermits (w : World) (p : PassId) (permits : Permits) :
    w.Calm mayBreak (w.setPermits p permits) :=
  modifyPass w p fun _ => ⟨rfl, rfl, fun _ => .inr⟩

theorem rouse (w : World) (calls : List CallId) : w.Calm mayBreak (w.rouse calls) := by
  obtain ⟨waking, h⟩ := rouse_eq w calls
  exact h ▸ setWaking w waking

theorem wake (w : World) (call : CallId) : w.Calm mayBreak (w.wake call) := by
  obtain ⟨waking, h⟩ := wake_eq w call
  exact h ▸ setWaking w waking

theorem tell (w : World) (p : PassId) (i : Nat) (h : HandlerId) (note : Note) :
    w.Calm mayBreak (w.tell p i h note) := record w rfl

theorem deed (deed : Deed w w') : w.Calm mayBreak w' := by
  cases deed with
  | drop found owned => exact (modifyHandler w _ _).trans (release _ _)
  | register named found held => exact of_record rfl rfl rfl rfl
  | subscribe named found owned vacant => exact of_record rfl rfl rfl rfl
  | unregister named found held => exact of_record rfl rfl rfl rfl
  | unregisterEmpty d => rw [setRegistry_remove_nowhere]; exact of_eq rfl rfl rfl
  | @dropGuard name guard found =>
    have dropped : w.Calm mayBreak (w.dropGuard guard) := by
      obtain ⟨_ | d, key, generation⟩ := guard
      · exact .refl w
      · unfold World.dropGuard releaseGuard
        dsimp only
        split
        · exact of_record rfl rfl rfl rfl
        · exact of_record rfl rfl rfl rfl
    exact dropped.trans (of_eq rfl rfl rfl)
  | purge named => exact of_record rfl rfl rfl rfl
  | tell p i h note => exact tell w p i h note
  | _ => exact of_eq rfl rfl rfl

theorem returnPermit (w : World) (p : PassId) : w.Calm mayBreak (w.returnPermit p) := by
  unfold World.returnPermit
  split
  · split
    · exact ((setPermits w p _).trans (setStatus _ p _ _)).trans (wake _ _)
    · exact setPermits w p _
  · exact .refl w

theorem retire (w : World) (p : PassId) (i : Nat) (h : HandlerId) (error : Option CallError) :
    w.Calm mayBreak (w.retire p i h error) :=
  ((setStatus w p i _).trans (release _ h)).trans (returnPermit _ p)

theorem cutCall (w : World) (p : PassId) (i : Nat) (h : HandlerId) :
    w.Calm mayBreak (w.cutCall p i h) := of_record rfl rfl rfl rfl

theorem returnCall (w : World) (p : PassId) (i : Nat) (h : HandlerId) (error : Option CallError) :
    w.Calm mayBreak (w.returnCall p i h error) := by
  have returned : w.Calm mayBreak
      ((w.setTally w.tally.returnedOne).record (.returned p i h error)) :=
    of_record rfl rfl rfl rfl
  exact returned.trans (retire _ p i h error)

theorem catchPanic (w : World) (p : PassId) (i : Nat) (d : DispatcherId) (call : Call)
    (payload : Payload) : w.Calm mayBreak (w.catchPanic p i d call payload) :=
  ((cutCall w p i _).trans (record _ rfl)).trans (retire _ p i _ _)

theorem close (w : World) (p : PassId) (ending : Ending)
    (allowed : ∀ payload, ending = .panicked payload → mayBreak p) :
    w.Calm mayBreak (w.close p ending) := by
  unfold World.close
  split
  · have closed : w.Calm mayBreak
        (w.modifyPass p fun pass => { pass with phase := .closed ending }) := by
      refine modifyPass w p fun _ => ⟨rfl, rfl, fun payload panicked => .inl ?_⟩
      exact allowed payload (Phase.closed.inj panicked)
    exact closed.trans (record _ rfl)
  · exact .refl w

theorem abandonCall (w : World) (p : PassId) (i : Nat) : w.Calm mayBreak (w.abandonCall p i) := by
  unfold World.abandonCall
  split
  · split
    · exact ((cutCall w p i _).trans (setStatus _ p i _)).trans (release _ _)
    · split
      · exact (setStatus w p i _).trans (release _ _)
      · exact .refl w
  · exact .refl w

theorem abandonPass (w : World) (p : PassId) (ending : Ending)
    (allowed : ∀ payload, ending = .panicked payload → mayBreak p) :
    w.Calm mayBreak (w.abandonPass p ending) := by
  unfold World.abandonPass
  split
  · split
    · exact (foldl _ (fun w i => abandonCall w p i) _ w).trans (close _ p ending allowed)
    · exact .refl w
  · exact .refl w

theorem abandon (w : World) (p : PassId) (ending : Ending)
    (allowed : ∀ payload, ending = .panicked payload → mayBreak p) :
    w.Calm mayBreak (w.abandon p ending) :=
  (foldl _ (fun w q => abandonPass w q .dropped nofun) _ w).trans (abandonPass _ p ending allowed)

theorem drop (w : World) (p : PassId) : w.Calm mayBreak (w.abandon p .dropped) :=
  abandon w p .dropped nofun

theorem survey (w : World) (p : PassId) (d : DispatcherId) : w.Calm mayBreak (w.survey p d) := by
  have swept : ∀ (v : World) (dead : Nat), v.Calm mayBreak (v.sweep p d dead) := by
    intro v dead
    unfold sweep
    split
    · exact .refl v
    · exact of_record rfl rfl rfl rfl
  exact ((retainAll w _).trans (swept _ _)).trans (record _ rfl)

theorem setCalls (w : World) (p : PassId) (calls : List Call) (permits : Option Permits)
    (due : List Nat) : w.Calm mayBreak ((w.setCalls p calls permits).makeDue p due) := by
  have called : w.Calm mayBreak (w.setCalls p calls permits) :=
    modifyPass w p fun _ => ⟨rfl, rfl, nofun⟩
  exact called.trans (setWaking _ _)

theorem openPass (w : World) (p : PassId) (pass : Pass)
    (allowed : ∀ payload, (w.openPass p pass).2 = some payload → mayBreak p) :
    w.Calm mayBreak (w.openPass p pass).1 := by
  cases read : (w.survey p pass.dispatcher).readNames (w.snapshotOf pass.dispatcher).live with
  | error payload =>
    rw [openPass_error read] at allowed ⊢
    exact ((survey w p _).trans (releaseAll _ _)).trans (close _ p _ fun _ _ => allowed payload rfl)
  | ok names =>
    rw [openPass_ok read]
    exact (survey w p _).trans (setCalls _ p _ _ _)

/-- The steps of a call are calm, but for the one in which its handler raises an event. -/
theorem take (w : World) (p : PassId) (i : Nat) (pass : Pass) (h : HandlerId) {step : Step}
    (other : ∀ summons propagate, step ≠ .raise summons propagate) :
    w.Calm mayBreak (w.take p i pass h step).1 := by
  cases step with
  | say text => exact tell w p i h _
  | linger times => cases times <;> exact .refl w
  | arrive gate expected => exact deed (Deed.arriveAt w gate)
  | failBelow bound =>
    simp only [World.take]
    split <;> exact .refl w
  | failFor sender =>
    simp only [World.take]
    split <;> exact .refl w
  | checkToken =>
    simp only [World.take]
    split <;> exact .refl w
  | cancelToken => exact deed (Deed.cancelToken w pass.token)
  | showToken => exact tell w p i h _
  | raise summons propagate => exact absurd rfl (other summons propagate)
  | act action propagate =>
    have done : w.Calm mayBreak (w.perform action).1 := deed (Deed.perform w action)
    simp only [World.take]
    unfold afterAction
    split
    · rename_i result
      rw [result] at done
      split
      · exact done
      · exact done.trans (tell _ p i h _)
    · rename_i result
      rw [result] at done
      exact done.trans (tell _ p i h _)
  | _ => exact .refl w

end Calm

/-- A call begins, if its handler is there. -/
theorem beginCall_calm (w : World) (p : PassId) (i : Nat) (pass : Pass) (call : Call) :
    w.beginCall p i pass call = w ∨ ∃ v number, w.Calm (fun _ => False) v ∧
      w.beginCall p i pass call = v.record
        (.began p i call.handler number pass.occasion (w.isCancelled pass.token)) := by
  unfold beginCall
  cases w.handlers.find? call.handler with
  | none => exact .inl rfl
  | some handler =>
    have counted : w.Calm (fun _ => False) (w.countCall call.handler) := .of_eq rfl rfl rfl
    exact .inr ⟨_, handler.begun, counted.trans (.setStatus _ p i _), rfl⟩

end World

namespace Machine
open World

inductive Stir (m : Machine) : Prop
  | calm (calm : m.world.Calm (fun _ => False) m.tick.world)
  | begins {frame : Frame} {outer : List Frame} {pass : Pass} {v : World}
      (h : HandlerId) (number : Nat) (control : m.control = .polling frame outer)
      (found : m.world.passes[frame.pass]? = some pass)
      (calm : m.world.Calm (fun _ => False) v)
      (tick : m.tick = ⟨v.record (.began frame.pass frame.call h number pass.occasion
        (m.world.isCancelled pass.token)), .polling frame outer⟩)
  | raises {frame : Frame} {outer : List Frame} {pass : Pass} {call : Call} {number : Nat}
      {summons : Summons} {propagate : Bool} {rest : Script} {q : PassId} {started : World}
      (control : m.control = .polling frame outer)
      (found : m.world.passes[frame.pass]? = some pass)
      (at_position : m.world.call? frame.pass frame.call = some call)
      (status : call.status = .running number .ready (.raise summons propagate :: rest))
      (summoned : m.world.summon (some (frame.callId, pass)) summons = .ok (q, started))
      (tick : m.tick = ⟨started.setStatus frame.pass frame.call
        (.running number (.pass q propagate) rest), .polling frame outer⟩)
  /-- The first poll of a pass comes to a handler that panics when it is asked for its name. -/
  | refuses {p : PassId} {outer : List Frame} {pass : Pass} {payload : Payload}
      (control : m.control = .entering p outer) (found : m.world.passes[p]? = some pass)
      (fresh : pass.phase = .fresh)
      (read : (m.world.survey p pass.dispatcher).readNames
        (m.world.snapshotOf pass.dispatcher).live = .error payload)
      (tick : m.tick = ⟨(m.world.openPass p pass).1, .ending (.panicked payload) outer⟩)
  /-- The panic of a call goes on, out of its pass. -/
  | breaks {payload : Payload} {frame : Frame} {outer : List Frame} {pass : Pass} {call : Call}
      (control : m.control = .ending (.panicked payload) (frame :: outer))
      (found : m.world.passes[frame.pass]? = some pass)
      (at_position : m.world.call? frame.pass frame.call = some call)
      (unisolated : (m.world.settings pass.dispatcher).isolatePanics = false)
      (tick : m.tick = ⟨m.world.abandon frame.pass (.panicked payload),
        .ending (.panicked payload) outer⟩)

section
variable {mayBreak : PassId → Prop} (w : World) (p : PassId) (frame : Frame) (outer : List Frame)

theorem pause_calm : w.Calm mayBreak (pause frame outer w).world := by
  have waits : ∀ (off : Bool) (turn : Turn) (lineage : List CallId), w.Calm mayBreak
      (if off then (⟨w.rouse lineage, .leaving frame.pass outer⟩ : Machine)
        else ⟨w, .choosing turn outer⟩).world := by
    intro off turn lineage
    split
    · exact .rouse w lineage
    · exact .refl w
  unfold pause
  split
  · dsimp only
    split
    · exact waits _ _ _
    · exact .refl w
  · exact .refl w

theorem yield_calm : w.Calm mayBreak (yield frame outer w).world :=
  (Calm.wake w _).trans (pause_calm _ frame outer)

theorem leave_calm : w.Calm mayBreak (leave w p outer).world := by
  cases outer with
  | cons frame frames => exact pause_calm w frame frames
  | nil =>
    unfold leave
    dsimp only
    split
    · exact .setWaking w _
    · exact .refl w

theorem deliver_calm (error : Option DispatchError) :
    w.Calm mayBreak (deliver w error outer).world := by
  cases outer with
  | nil => exact .refl w
  | cons frame frames =>
    unfold deliver
    dsimp only
    split
    · split
      · exact .refl w
      · exact (Calm.tell w _ _ _ _).trans (.setStatus _ _ _ _)
    · exact .refl w

theorem endTurn_calm : w.Calm mayBreak (endTurn w p outer).world := by
  unfold endTurn
  split
  · split
    · exact (Calm.close w p _ nofun).trans (deliver_calm _ outer _)
    · exact .refl w
  · exact .refl w

theorem choose_calm (turn : Turn) : w.Calm mayBreak (choose w turn outer).world := by
  unfold choose
  split
  · split
    · split
      · exact .setWaking w _
      · exact .setWaking w _
    · exact .setWaking w _
  · exact endTurn_calm w turn.pass outer

variable {w} in
theorem afterStep_calm (number : Nat) (rest : Script) {result : World × Effect}
    (taken : w.Calm mayBreak result.1) :
    w.Calm mayBreak (afterStep frame outer number rest result).world := by
  obtain ⟨after, effect⟩ := result
  cases effect with
  | goOn await => exact taken.trans (.setStatus _ _ _ _)
  | giveWay turns => exact (taken.trans (.setStatus _ _ _ _)).trans (yield_calm _ frame outer)
  | finish verdict => exact taken

end

section
variable {w : World} {frame : Frame} {outer : List Frame} {pass : Pass} {call : Call}
  (found : w.passes[frame.pass]? = some pass)
  (at_position : w.call? frame.pass frame.call = some call)
include found at_position

theorem poll_of_found : poll w frame outer = visit w frame outer pass call := by
  simp only [poll, found, at_position]

theorem stir_begin {admitted : World} (calm : w.Calm (fun _ => False) admitted)
    (same : admitted.cancelled = w.cancelled)
    (visited : visit w frame outer pass call =
      stay frame outer (admitted.beginCall frame.pass frame.call pass call)) :
    Stir ⟨w, .polling frame outer⟩ := by
  have tick : tick ⟨w, .polling frame outer⟩ =
      stay frame outer (admitted.beginCall frame.pass frame.call pass call) :=
    (poll_of_found found at_position).trans visited
  rcases admitted.beginCall_calm frame.pass frame.call pass call with none | ⟨v, number, after, began⟩
  · exact .calm (by rw [tick, none]; exact calm)
  · have flag : admitted.isCancelled pass.token = w.isCancelled pass.token := by
      simp only [isCancelled, same]
    refine .begins call.handler number rfl found (calm.trans after) ?_
    rw [tick, began, flag]
    rfl

theorem stir_running {number : Nat} {await : Await} {rest : Script}
    (status : call.status = .running number await rest) : Stir ⟨w, .polling frame outer⟩ := by
  have tick : tick ⟨w, .polling frame outer⟩ =
      visitRunning w frame outer pass call.handler number await rest := by
    refine (poll_of_found found at_position).trans ?_
    simp only [visit, status]
  have waits : ∀ met : Bool, w.Calm (fun _ => False) (if met then
      stay frame outer (w.setStatus frame.pass frame.call (.running number .ready rest))
      else pause frame outer (w.await frame.callId pass.token await)).world := by
    intro met
    split
    · exact .setStatus w _ _ _
    · exact (Calm.deed (Deed.await w _ _ _)).trans (pause_calm _ frame outer)
  cases await with
  | ready =>
    cases rest with
    | nil => exact .calm (by rw [tick]; exact .refl w)
    | cons step rest =>
      by_cases raises : ∃ summons propagate, step = .raise summons propagate
      · obtain ⟨summons, propagate, rfl⟩ := raises
        cases summoned : w.summon (some (frame.callId, pass)) summons with
        | ok started =>
          refine .raises rfl found at_position status summoned (tick.trans ?_)
          have called : w.summon (some (⟨frame.pass, frame.call⟩, pass)) summons = .ok started :=
            summoned
          simp only [visitRunning, take, called]
          rfl
        | error refusal =>
          have called : w.summon (some (⟨frame.pass, frame.call⟩, pass)) summons =
              .error refusal := summoned
          refine .calm ?_
          rw [tick]
          simp only [visitRunning, take, called]
          exact afterStep_calm frame outer number rest (.tell w _ _ _ _)
      · refine .calm ?_
        rw [tick]
        exact afterStep_calm frame outer number rest (.take w _ _ pass _ fun summons propagate same =>
          raises ⟨summons, propagate, same⟩)
  | turns n =>
    cases n with
    | zero => exact .calm (by rw [tick]; exact waits _)
    | succ n =>
      refine .calm ?_
      rw [tick]
      exact (Calm.setStatus w _ _ _).trans (yield_calm _ frame outer)
  | pass q propagate => exact .calm (by rw [tick]; exact .refl w)
  | _ => exact .calm (by rw [tick]; exact waits _)

end

theorem stir_poll (w : World) (frame : Frame) (outer : List Frame) :
    Stir ⟨w, .polling frame outer⟩ := by
  cases found : w.passes[frame.pass]? with
  | none => exact .calm (by simp only [tick, poll, found]; exact .refl w)
  | some pass =>
    cases at_position : w.call? frame.pass frame.call with
    | none => exact .calm (by simp only [tick, poll, found, at_position]; exact .refl w)
    | some call =>
      have tick : tick ⟨w, .polling frame outer⟩ = visit w frame outer pass call :=
        poll_of_found found at_position
      cases status : call.status with
      | idle =>
        cases limited : pass.permits with
        | none =>
          exact stir_begin found at_position (.refl w) rfl (by simp only [visit, status, limited])
        | some permits =>
          cases free : permits.take? with
          | some left =>
            exact stir_begin found at_position (.setPermits w frame.pass left) rfl
              (by simp only [visit, status, limited, free])
          | none =>
            refine .calm ?_
            rw [tick]
            simp only [visit, status, limited, free]
            exact ((Calm.setPermits w _ _).trans (.setStatus _ _ _ _)).trans (pause_calm _ _ _)
      | queued =>
        refine .calm ?_
        rw [tick]
        simp only [visit, status]
        exact pause_calm w frame outer
      | granted =>
        exact stir_begin found at_position (.refl w) rfl (by simp only [visit, status])
      | running number await rest => exact stir_running found at_position status
      | finished error => exact .calm (by rw [tick]; simp only [visit, status]; exact .refl w)
      | abandoned => exact .calm (by rw [tick]; simp only [visit, status]; exact .refl w)

theorem stir_enter (w : World) (p : PassId) (outer : List Frame) : Stir ⟨w, .entering p outer⟩ := by
  cases found : w.passes[p]? with
  | none => exact .calm (by simp only [tick, enter, found]; exact .refl w)
  | some pass =>
    cases phase : pass.phase with
    | fresh =>
      cases read : (w.survey p pass.dispatcher).readNames (w.snapshotOf pass.dispatcher).live with
      | error payload =>
        refine .refuses rfl found phase read ?_
        simp only [tick, enter, found, phase, openPass_error read]
        rfl
      | ok names =>
        have opened : w.Calm (fun _ => False) (w.openPass p pass).1 :=
          .openPass w p pass (by simp [openPass_ok read])
        refine .calm ?_
        have none_out : (w.openPass p pass).2 = none := by rw [openPass_ok read]
        have result : w.openPass p pass = ((w.openPass p pass).1, none) := by rw [← none_out]
        simp only [tick, enter, found, phase]
        rw [result]
        exact opened.trans (.setWaking _ _)
    | running =>
      refine .calm ?_
      simp only [tick, enter, found, phase]
      split
      · exact .setWaking w _
      · exact (Calm.setWaking w _).trans (.setWaking _ _)
    | closed ending => exact .calm (by simp only [tick, enter, found, phase]; exact .refl w)

theorem stir_conclude (w : World) (verdict : Verdict) (frames : List Frame) :
    Stir ⟨w, .ending verdict frames⟩ := by
  cases frames with
  | nil => exact .calm (by cases verdict <;> exact .refl w)
  | cons frame outer =>
    cases found : w.passes[frame.pass]? with
    | none => exact .calm (by simp only [tick, conclude, found]; exact .refl w)
    | some pass =>
      cases at_position : w.call? frame.pass frame.call with
      | none => exact .calm (by simp only [tick, conclude, found, at_position]; exact .refl w)
      | some call =>
        cases verdict with
        | returned error =>
          refine .calm ?_
          simp only [tick, conclude, found, at_position]
          exact (Calm.returnCall w _ _ _ _).trans (.setWaking _ _)
        | panicked payload =>
          cases isolated : (w.settings pass.dispatcher).isolatePanics with
          | true =>
            refine .calm ?_
            simp only [tick, conclude, found, at_position, isolated, if_true]
            exact (Calm.catchPanic w _ _ _ _ _).trans (.setWaking _ _)
          | false =>
            refine .breaks rfl found at_position isolated ?_
            simp only [tick, conclude, found, at_position, isolated]
            rfl

theorem tick_stir (m : Machine) : m.Stir := by
  obtain ⟨w, control⟩ := m
  cases control with
  | entering p outer => exact stir_enter w p outer
  | choosing turn outer => exact .calm (choose_calm w outer turn)
  | polling frame outer => exact stir_poll w frame outer
  | leaving p outer => exact .calm (leave_calm w p outer)
  | ending verdict frames => exact stir_conclude w verdict frames
  | settled ending => exact .calm (.refl w)

end Machine
end Fanout
