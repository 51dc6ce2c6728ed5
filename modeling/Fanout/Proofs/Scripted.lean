import Fanout.Proofs.Metering
import Fanout.Proofs.Places
import Fanout.Proofs.Rousing

/-! What is left for handlers to do. If handlers are made after blueprints that hold none but
permitted steps, then no call ever comes to another step, whatever the parties to a world do. -/
namespace Fanout
variable {may : Step → Prop}

/-- Whatever the script says may be done. -/
def Script.Permitted (may : Step → Prop) (script : Script) : Prop := ∀ step ∈ script, may step

/-- What is left of a call may be done, and so might be that by which it came to wait for its
token. -/
def Status.Permitted (may : Step → Prop) : Status → Prop
  | running _ await rest =>
      (await = .cancellation → may .awaitToken) ∧ Script.Permitted may rest
  | _ => True

def Pass.Permitted (may : Step → Prop) (pass : Pass) : Prop :=
  ∀ call ∈ pass.calls, call.status.Permitted may

namespace Pass.Permitted
variable {pass : Pass} (h : pass.Permitted may)
include h

theorem setCall (i : Nat) {status : Status} (permitted : status.Permitted may) :
    (pass.setCall i status).Permitted may := by
  intro call member
  obtain ⟨j, found⟩ := List.mem_iff_getElem?.mp member
  unfold Pass.setCall at found
  rw [List.getElem?_modify] at found
  obtain ⟨old, there, changed⟩ := Option.map_eq_some_iff.mp found
  split at changed
  · exact changed ▸ permitted
  · exact changed ▸ h old (List.mem_of_getElem? there)

end Pass.Permitted

namespace World

/-- All that is left for handlers to do in the world is permitted. -/
structure Scripted (may : Step → Prop) (w : World) : Prop where
  blueprints : ∀ blueprint ∈ w.blueprints, ∀ script ∈ blueprint.scripts,
    Script.Permitted may script
  handlers : ∀ e ∈ w.handlers.entries, ∀ script ∈ e.2.scripts, Script.Permitted may script
  passes : ∀ pass ∈ w.passes, pass.Permitted may
  waiting : ∀ token call, (.cancellation token, call) ∈ w.waking.waiting → may .awaitToken

theorem waiting_rouse (w : World) (calls : List CallId) :
    (w.rouse calls).waking.waiting = w.waking.waiting := by
  induction calls generalizing w with
  | nil => rfl
  | cons call callers ih =>
    unfold rouse
    dsimp only
    split
    · split
      · rfl
      · split
        · rfl
        · exact ih _
    · exact ih _

theorem waiting_wake (w : World) (call : CallId) :
    (w.wake call).waking.waiting = w.waking.waiting := by
  unfold wake
  split
  · split
    · exact waiting_rouse ..
    · rfl
  · rfl

theorem waiting_signal (w : World) (s : Signal) :
    (w.signal s).waking.waiting = w.waking.waiting.filter fun e => e.1 ≠ s := by
  have all : ∀ (calls : List CallId) (v : World),
      (calls.foldl wake v).waking.waiting = v.waking.waiting := by
    intro calls
    induction calls with
    | nil => exact fun v => rfl
    | cons call calls ih => exact fun v => (ih (v.wake call)).trans (waiting_wake v call)
  exact all _ _

namespace Scripted
variable {w w' : World} (h : w.Scripted may)
include h

/-- What is done elsewhere leaves all this as it is. -/
theorem elsewhere (blueprints : w'.blueprints = w.blueprints) (handlers : w'.handlers = w.handlers)
    (passes : w'.passes = w.passes) (waiting : w'.waking.waiting ⊆ w.waking.waiting) :
    w'.Scripted may where
  blueprints := blueprints ▸ h.blueprints
  handlers := handlers ▸ h.handlers
  passes := passes ▸ h.passes
  waiting token call member := h.waiting token call (waiting member)

theorem call {p : PassId} {i : Nat} {call : Call} (found : w.call? p i = some call) :
    call.status.Permitted may := by
  unfold World.call? at found
  split at found
  · rename_i pass there
    exact h.passes pass (List.mem_of_getElem? there) call (List.mem_of_getElem? found)
  · cases found

theorem putHandler (name : HandlerId) {handler : Handler}
    (permitted : ∀ script ∈ handler.scripts, Script.Permitted may script) :
    ({ w with handlers := w.handlers.put name handler } : World).Scripted may where
  blueprints := h.blueprints
  handlers e member := by
    rcases mem_entries_put member with before | same
    · exact h.handlers e before
    · exact same ▸ permitted
  passes := h.passes
  waiting := h.waiting

theorem modifyHandler (name : HandlerId) {f : Handler → Handler}
    (same : ∀ handler, (f handler).scripts = handler.scripts) :
    (w.modifyHandler name f).Scripted may := by
  unfold World.modifyHandler Roster.modify
  cases found : w.handlers.find? name with
  | none => exact h
  | some handler =>
    refine h.putHandler name ?_
    rw [same]
    exact h.handlers _ (Roster.mem_of_lookup found)

theorem retain (name : HandlerId) : (w.retain name).Scripted may :=
  h.modifyHandler name fun _ => rfl

theorem release (name : HandlerId) : (w.release name).Scripted may := by
  have gone := h.modifyHandler name (f := fun handler =>
    { handler with strong := handler.strong - 1 }) fun _ => rfl
  unfold World.release
  split
  · exact gone.elsewhere rfl rfl rfl fun _ => id
  · exact gone

theorem retainAll (names : List HandlerId) : (w.retainAll names).Scripted may := by
  induction names generalizing w with
  | nil => exact h
  | cons name names ih => exact ih (h.retain name)

theorem releaseAll (names : List HandlerId) : (w.releaseAll names).Scripted may := by
  induction names generalizing w with
  | nil => exact h
  | cons name names ih => exact ih (h.release name)

theorem modifyPass (p : PassId) {f : Pass → Pass}
    (keeps : ∀ pass, pass.Permitted may → (f pass).Permitted may) :
    (w.modifyPass p f).Scripted may where
  blueprints := h.blueprints
  handlers := h.handlers
  passes pass member := by
    obtain ⟨q, found⟩ := List.mem_iff_getElem?.mp member
    unfold World.modifyPass at found
    rw [List.getElem?_modify] at found
    obtain ⟨old, there, changed⟩ := Option.map_eq_some_iff.mp found
    have before := h.passes old (List.mem_of_getElem? there)
    split at changed
    · exact changed ▸ keeps old before
    · exact changed ▸ before
  waiting := h.waiting

theorem setStatus (p : PassId) (i : Nat) {status : Status} (permitted : status.Permitted may) :
    (w.setStatus p i status).Scripted may :=
  h.modifyPass p fun _ pass => pass.setCall i permitted

theorem setPermits (p : PassId) (permits : Fanout.Permits) :
    (w.setPermits p permits).Scripted may :=
  h.modifyPass p fun _ pass => pass

theorem setCalls (p : PassId) {calls : List Call}
    (permitted : ∀ call ∈ calls, call.status.Permitted may) (permits : Option Fanout.Permits) :
    (w.setCalls p calls permits).Scripted may := h.modifyPass p fun _ _ => permitted

theorem close (p : PassId) (ending : Ending) : (w.close p ending).Scripted may := by
  unfold World.close
  split
  · have closed := h.modifyPass p (f := fun pass => { pass with phase := .closed ending })
      fun _ pass => pass
    exact closed.elsewhere rfl rfl rfl fun _ => id
  · exact h

theorem start (d : DispatcherId) (token : Option Token) (sender : String) (args : Int)
    (lineage : List CallId) : (w.start d token sender args lineage).2.Scripted may where
  blueprints := h.blueprints
  handlers := h.handlers
  passes pass member := by
    rcases List.mem_append.mp member with before | last
    · exact h.passes pass before
    · rw [List.mem_singleton.mp last]
      exact nofun
  waiting := h.waiting

theorem abandonCall (p : PassId) (i : Nat) : (w.abandonCall p i).Scripted may := by
  have cut : ∀ name, (w.cutCall p i name).Scripted may :=
    fun _ => h.elsewhere rfl rfl rfl fun _ => id
  have abandoned : Status.Permitted may .abandoned := trivial
  unfold World.abandonCall
  split
  · split
    · exact ((cut _).setStatus p i abandoned).release _
    · split
      · exact (h.setStatus p i abandoned).release _
      · exact h
  · exact h

theorem abandonPass (p : PassId) (ending : Ending) : (w.abandonPass p ending).Scripted may := by
  have all : ∀ (is : List Nat) (v : World), v.Scripted may →
      (is.foldl (fun v i => v.abandonCall p i) v).Scripted may := by
    intro is
    induction is with
    | nil => exact fun v hv => hv
    | cons i is ih => exact fun v hv => ih _ (hv.abandonCall p i)
  unfold World.abandonPass
  split
  · split
    · exact (all _ w h).close p ending
    · exact h
  · exact h

theorem abandon (p : PassId) (ending : Ending) : (w.abandon p ending).Scripted may := by
  have all : ∀ (qs : List PassId) (v : World), v.Scripted may →
      (qs.foldl (fun v q => v.abandonPass q .dropped) v).Scripted may := by
    intro qs
    induction qs with
    | nil => exact fun v hv => hv
    | cons q qs ih => exact fun v hv => ih _ (hv.abandonPass q .dropped)
  exact (all _ w h).abandonPass p ending

theorem setWaking {waking : Waking} (waiting : waking.waiting ⊆ w.waking.waiting) :
    (w.setWaking waking).Scripted may := h.elsewhere rfl rfl rfl waiting

theorem rouse (calls : List CallId) : (w.rouse calls).Scripted may := by
  obtain ⟨waking, same⟩ := rouse_eq w calls
  have waiting := waiting_rouse w calls
  rw [same] at waiting ⊢
  exact h.setWaking (waiting ▸ List.Subset.refl _)

theorem wake (call : CallId) : (w.wake call).Scripted may := by
  obtain ⟨waking, same⟩ := wake_eq w call
  have waiting := waiting_wake w call
  rw [same] at waiting ⊢
  exact h.setWaking (waiting ▸ List.Subset.refl _)

theorem signal (s : Signal) : (w.signal s).Scripted may := by
  obtain ⟨waking, same⟩ := signal_eq w s
  have waiting := waiting_signal w s
  rw [same] at waiting ⊢
  exact h.setWaking (waiting ▸ List.filter_subset_self _)

theorem await (call : CallId) (token : Token) {await : Await}
    (permitted : await = .cancellation → may .awaitToken) :
    (w.await call token await).Scripted may := by
  unfold World.await
  cases hs : signalOf token await with
  | none => exact h
  | some s =>
    refine ⟨h.blueprints, h.handlers, h.passes, fun t c member => ?_⟩
    dsimp only [World.setWaking, Waking.await] at member
    split at member
    · exact h.waiting t c member
    · rcases List.mem_append.mp member with before | last
      · exact h.waiting t c before
      · obtain ⟨rfl, -⟩ := Prod.mk.inj (List.mem_singleton.mp last)
        cases await with
        | cancellation => exact permitted rfl
        | _ => cases hs

theorem perform (action : Action) : (w.perform action).1.Scripted may := by
  have waiting : (w.perform action).1.waking.waiting ⊆ w.waking.waiting := by
    rcases perform_signals w action with same | ⟨v, s, signalled, -, same⟩
    · rw [same]
      exact fun _ => id
    · rw [signalled, waiting_signal, same]
      exact List.filter_subset_self _
  have kept : ∀ {v : World}, Deed w v → (∀ e ∈ v.handlers.entries, ∀ script ∈ e.2.scripts,
      Script.Permitted may script) ∧ v.blueprints = w.blueprints := by
    intro v deed
    have changed : ∀ {f : Handler → Handler}, (∀ x, (f x).scripts = x.scripts) →
        ∀ name, (w.modifyHandler name f).Scripted may :=
      fun same name => h.modifyHandler name same
    cases deed with
    | createHandler blueprint wish vacant =>
      refine ⟨(h.putHandler _ fun script member => ?_).handlers, rfl⟩
      change script ∈ (w.blueprints.getD blueprint {}).scripts at member
      rw [List.getD_eq_getElem?_getD] at member
      cases made : w.blueprints[blueprint]? with
      | none => simp [made] at member
      | some b =>
        have there : script ∈ b.scripts := by simpa [made] using member
        exact h.blueprints b (List.mem_of_getElem? made) script there
    | clone found owned =>
      refine ⟨((changed ?_ _).retain _).handlers, rfl⟩
      exact fun _ => rfl
    | drop found owned =>
      refine ⟨((changed ?_ _).release _).handlers, ?_⟩
      · exact fun _ => rfl
      · rw [release_eq]
        rfl
    | forget name =>
      refine ⟨(changed ?_ _).handlers, rfl⟩
      exact fun _ => rfl
    | rename name new =>
      refine ⟨(changed ?_ _).handlers, rfl⟩
      exact fun _ => rfl
    | unregisterEmpty d =>
      rw [setRegistry_remove_nowhere]
      exact ⟨h.handlers, rfl⟩
    | @dropGuard name guard found =>
      obtain ⟨_ | d, key, generation⟩ := guard
      · exact ⟨h.handlers, rfl⟩
      · unfold World.dropGuard releaseGuard
        dsimp only
        split <;> exact ⟨h.handlers, rfl⟩
    | _ => exact ⟨h.handlers, rfl⟩
  obtain ⟨handlers, blueprints⟩ := kept (Deed.perform w action)
  exact ⟨blueprints ▸ h.blueprints, handlers, (passes_perform w action).symm ▸ h.passes,
    fun token call member => h.waiting token call (waiting member)⟩

theorem openPass (p : PassId) (pass : Pass) : (w.openPass p pass).1.Scripted may := by
  have surveyed : (w.survey p pass.dispatcher).Scripted may := by
    have retained := h.retainAll (w.snapshotOf pass.dispatcher).live
    unfold survey sweep
    dsimp only
    split <;> exact retained.elsewhere rfl rfl rfl fun _ => id
  cases read : (w.survey p pass.dispatcher).readNames (w.snapshotOf pass.dispatcher).live with
  | error payload =>
    rw [openPass_error read]
    exact (surveyed.releaseAll _).close p _
  | ok names =>
    rw [openPass_ok read]
    have idle : ∀ call ∈ firstCalls (w.snapshotOf pass.dispatcher).live names,
        call.status.Permitted may := by
      intro call member
      rw [World.idle_of_mem_firstCalls member]
      trivial
    exact (surveyed.setCalls p idle _).setWaking fun _ => id

theorem beginCall (p : PassId) (i : Nat) (pass : Pass) (call : Call) :
    (w.beginCall p i pass call).Scripted may := by
  unfold World.beginCall
  split
  · rename_i handler found
    have begun : Script.Permitted may (handler.script handler.begun) := by
      unfold Handler.script
      rw [List.getD_eq_getElem?_getD]
      cases there : handler.scripts[min handler.begun (handler.scripts.length - 1)]? with
      | none => exact nofun
      | some script =>
        exact h.handlers _ (Roster.mem_of_lookup found) script (List.mem_of_getElem? there)
    have counted : (w.countCall call.handler).Scripted may :=
      (h.modifyHandler _ (f := fun x => { x with begun := x.begun + 1 }) fun _ => rfl).elsewhere
        rfl rfl rfl fun _ => id
    have status : (Status.running handler.begun .ready
        (handler.script handler.begun)).Permitted may := ⟨nofun, begun⟩
    exact (counted.setStatus p i status).elsewhere rfl rfl rfl fun _ => id
  · exact h

theorem returnPermit (p : PassId) : (w.returnPermit p).Scripted may := by
  have granted : Status.Permitted may .granted := trivial
  unfold World.returnPermit
  split
  · split
    · exact ((h.setPermits p _).setStatus p _ granted).wake _
    · exact h.setPermits p _
  · exact h

theorem retire (p : PassId) (i : Nat) (name : HandlerId) (error : Option CallError) :
    (w.retire p i name error).Scripted may := by
  have finished : (Status.finished error).Permitted may := trivial
  exact ((h.setStatus p i finished).release name).returnPermit p

theorem returnCall (p : PassId) (i : Nat) (name : HandlerId) (error : Option CallError) :
    (w.returnCall p i name error).Scripted may := by
  have told : ((w.setTally w.tally.returnedOne).record (.returned p i name error)).Scripted may :=
    h.elsewhere rfl rfl rfl fun _ => id
  exact told.retire p i name error

theorem catchPanic (p : PassId) (i : Nat) (d : DispatcherId) (call : Call) (payload : Payload) :
    (w.catchPanic p i d call payload).Scripted may := by
  have told : ((w.cutCall p i call.handler).record
      (.caught p i d call.name payload.info)).Scripted may :=
    h.elsewhere rfl rfl rfl fun _ => id
  exact told.retire p i call.handler _

theorem tell (p : PassId) (i : Nat) (name : HandlerId) (note : Note) :
    (w.tell p i name note).Scripted may := h.elsewhere rfl rfl rfl fun _ => id

/-- What is left after a step is permitted. -/
theorem take (p : PassId) (i : Nat) (pass : Pass) (name : HandlerId) (step : Step) :
    (w.take p i pass name step).1.Scripted may := by
  cases step with
  | say text => exact h.tell ..
  | linger times => cases times <;> exact h
  | arrive gate expected =>
    have arrived : ({ w with arrivals := gate :: w.arrivals } : World).Scripted may :=
      h.elsewhere rfl rfl rfl fun _ => id
    exact arrived.signal _
  | failBelow bound =>
    simp only [World.take]
    split <;> exact h
  | failFor sender =>
    simp only [World.take]
    split <;> exact h
  | checkToken =>
    simp only [World.take]
    split <;> exact h
  | cancelToken =>
    have cancelled : ({ w with cancelled := pass.token :: w.cancelled } : World).Scripted may :=
      h.elsewhere rfl rfl rfl fun _ => id
    simp only [World.take, cancelToken]
    split
    · exact h
    · exact cancelled.signal _
  | showToken => exact h.tell ..
  | raise summons propagate =>
    simp only [World.take]
    split
    · rename_i q started hs
      obtain ⟨d, token, -, hs⟩ := summon_eq_ok hs
      cases hs
      exact h.start ..
    · exact h.tell ..
  | act action propagate =>
    have performed := h.perform action
    simp only [World.take, afterAction]
    split
    · rename_i error same
      rw [same] at performed
      split
      · exact performed
      · exact performed.tell ..
    · rename_i same
      rw [same] at performed
      exact performed.tell ..
  | _ => exact h

end Scripted

/-- There is only one step after which a call waits for its token. -/
theorem take_cancellation {w : World} {p : PassId} {i : Nat} {pass : Pass} {name : HandlerId}
    {step : Step} (waits : (w.take p i pass name step).2 = .goOn .cancellation) :
    step = .awaitToken := by
  cases step with
  | awaitToken => rfl
  | linger times => cases times <;> cases waits
  | failBelow bound =>
    simp only [take] at waits
    split at waits <;> cases waits
  | failFor sender =>
    simp only [take] at waits
    split at waits <;> cases waits
  | checkToken =>
    simp only [take] at waits
    split at waits <;> cases waits
  | raise summons propagate =>
    simp only [take] at waits
    split at waits <;> cases waits
  | act action propagate =>
    simp only [take, afterAction] at waits
    split at waits
    · split at waits <;> cases waits
    · cases waits
  | _ => cases waits

end World

namespace Machine
variable {w : World} (h : w.Scripted may) (p : PassId) (frame : Frame) (outer : List Frame)
include h

theorem pause_scripted : (pause frame outer w).world.Scripted may := by
  unfold pause
  cases w.passes[frame.pass]? with
  | none => exact h
  | some pass =>
    generalize (if w.waking.isDue frame.callId then 1 else 0) = restless
    dsimp only
    split
    · split
      · exact h.rouse _
      · exact h
    · exact h

theorem yield_scripted : (yield frame outer w).world.Scripted may :=
  pause_scripted (h.wake frame.callId) frame outer

theorem beginTurn_scripted : (beginTurn p outer w).world.Scripted may :=
  h.setWaking fun _ => id

theorem deliver_scripted (error : Option DispatchError) :
    (deliver w error outer).world.Scripted may := by
  unfold deliver
  split
  · exact h
  · split
    · rename_i found
      have permitted := (h.call found).2
      split
      · exact h
      · exact (h.tell ..).setStatus _ _ ⟨nofun, permitted⟩
    · exact h

theorem choose_scripted (turn : Turn) : (choose w turn outer).world.Scripted may := by
  unfold choose
  split
  · rename_i call left next
    have waiting : left.waiting = w.waking.waiting := by
      rw [Waking.eq_of_next? next]
    have taken : (w.setWaking left).Scripted may := h.setWaking (waiting ▸ List.Subset.refl _)
    split
    · split <;> exact taken
    · exact taken
  · unfold endTurn
    split
    · split
      · exact deliver_scripted (h.close ..) outer _
      · exact h
    · exact h

theorem leave_scripted : (leave w p outer).world.Scripted may := by
  unfold leave
  split
  · exact pause_scripted h _ _
  · split
    · exact h.setWaking fun _ => id
    · exact h

theorem visitRunning_scripted (pass : Pass) (name : HandlerId) (number : Nat) {await : Await}
    {rest : Script} (permitted : (Status.running number await rest).Permitted may) :
    (visitRunning w frame outer pass name number await rest).world.Scripted may := by
  obtain ⟨waits, rest_permitted⟩ := permitted
  unfold visitRunning
  split
  · split
    · rename_i step later
      have taken := h.take frame.pass frame.call pass name step
      have waits : (w.take frame.pass frame.call pass name step).2 = .goOn .cancellation →
          may .awaitToken :=
        fun same => World.take_cancellation same ▸ rest_permitted step List.mem_cons_self
      have later_permitted : Script.Permitted may later :=
        fun step member => rest_permitted step (List.mem_cons_of_mem _ member)
      unfold afterStep
      split
      · rename_i result after await same
        rw [same] at taken waits
        exact taken.setStatus _ _ ⟨fun cancels => waits (by rw [cancels]), later_permitted⟩
      · rename_i result after turns same
        rw [same] at taken
        have gives_way : (Status.running number (.turns turns) later).Permitted may :=
          ⟨nofun, later_permitted⟩
        exact yield_scripted (taken.setStatus _ _ gives_way) frame outer
      · rename_i result after verdict same
        rw [same] at taken
        exact taken
    · exact h
  · rename_i n
    have gives_way : (Status.running number (.turns n) rest).Permitted may :=
      ⟨nofun, rest_permitted⟩
    exact yield_scripted (h.setStatus _ _ gives_way) frame outer
  · exact h
  · split
    · have goes_on : (Status.running number .ready rest).Permitted may :=
        ⟨nofun, rest_permitted⟩
      exact h.setStatus _ _ goes_on
    · exact pause_scripted (h.await _ _ waits) frame outer

theorem visit_scripted (pass : Pass) {call : Call} (permitted : call.status.Permitted may) :
    (visit w frame outer pass call).world.Scripted may := by
  have queued : Status.Permitted may .queued := trivial
  unfold visit
  split
  · split
    · exact h.beginCall ..
    · split
      · exact (h.setPermits ..).beginCall ..
      · exact pause_scripted ((h.setPermits ..).setStatus _ _ queued) frame outer
  · exact pause_scripted h frame outer
  · exact h.beginCall ..
  · rename_i status
    exact visitRunning_scripted h frame outer pass _ _ (status ▸ permitted)
  · exact h
  · exact h

theorem conclude_scripted (verdict : Verdict) (frames : List Frame) :
    (conclude w verdict frames).world.Scripted may := by
  unfold conclude
  split
  · split <;> exact h
  · split
    · split
      · exact beginTurn_scripted (h.returnCall ..) _ _
      · split
        · exact beginTurn_scripted (h.catchPanic ..) _ _
        · exact h.abandon ..
    · exact h

theorem enter_scripted : (enter w p outer).world.Scripted may := by
  unfold enter
  split
  · rename_i pass _
    split
    · have opened := h.openPass p pass
      unfold afterOpening
      split
      · rename_i same
        rw [same] at opened
        exact beginTurn_scripted opened p outer
      · rename_i same
        rw [same] at opened
        exact opened
    · refine beginTurn_scripted ?_ p outer
      split
      · exact h
      · exact h.setWaking fun _ => id
    · exact h
  · exact h

omit h in
theorem tick_scripted {m : Machine} (h : m.world.Scripted may) : m.tick.world.Scripted may := by
  obtain ⟨w, control⟩ := m
  cases control with
  | entering p outer => exact enter_scripted h p outer
  | choosing turn outer => exact choose_scripted h outer turn
  | polling frame outer =>
    unfold tick poll
    dsimp only
    split
    · rename_i found at_position
      exact visit_scripted h frame outer _ (h.call at_position)
    · exact h
  | leaving p outer => exact leave_scripted h p outer
  | ending verdict frames => exact conclude_scripted h verdict frames
  | settled ending => exact h

omit h in
theorem move_scripted {m : Machine} (h : m.world.Scripted may) (move : Move) :
    (m.move move).world.Scripted may := by
  cases move with
  | tick => exact tick_scripted h
  | act action => exact h.perform action
  | start summons =>
    unfold Machine.move
    dsimp only
    split
    · rename_i hs
      obtain ⟨d, token, -, hs⟩ := World.summon_eq_ok hs
      cases hs
      exact h.start ..
    · exact h
  | poll p =>
    unfold Machine.move
    dsimp only
    split
    · exact h.setWaking fun _ => id
    · exact h
  | suspend =>
    unfold Machine.move
    dsimp only
    split <;> exact h
  | drop p =>
    unfold Machine.move
    dsimp only
    split
    · exact h.abandon ..
    · exact h
  | reorder d order =>
    show (m.world.reorder d order).Scripted may
    unfold World.reorder
    split
    · exact h.elsewhere rfl rfl rfl fun _ => id
    · exact h

omit h in
theorem scripted_idle {blueprints : List Blueprint} (arity : Arity)
    (permitted : ∀ blueprint ∈ blueprints, ∀ script ∈ blueprint.scripts,
      Script.Permitted may script) : (idle arity blueprints).world.Scripted may where
  blueprints := permitted
  handlers := nofun
  passes := nofun
  waiting := nofun

end Machine
end Fanout
