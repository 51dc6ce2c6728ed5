import Fanout.Proofs.Footprint
import Fanout.Proofs.Panics

/-! What a pass makes known by itself: what it swept away, whom it found alive, which panics were
caught in it and how it ended. A change that opens no pass adds to that of a pass at most that a
panic was caught, while the pass is under way, or that it is closed; so it stands in this order. A
tick makes a caught panic known just when a call of the pass ends in a panic. -/
namespace Fanout

namespace Event

/-- The pass that makes the event known by itself. -/
def announcer? : Event → Option PassId
  | purged _ pass _ => pass
  | opened p _ _ _ => some p
  | caught p _ _ _ _ => some p
  | closed p _ _ => some p
  | _ => none

def isCaught : Event → Bool
  | caught _ _ _ _ _ => true
  | _ => false

end Event

def Pass.closing (p : PassId) (pass : Pass) : List Event :=
  match pass.phase with
  | .closed ending => [.closed p pass.dispatcher ending]
  | _ => []

theorem Pass.closing_of_running {p : PassId} {pass : Pass} (running : pass.phase = .running) :
    pass.closing p = [] := by
  rw [closing, running]

theorem Pass.closing_of_isOpen {p : PassId} {pass : Pass} (isOpen : pass.phase.isOpen = true) :
    pass.closing p = [] := by
  unfold closing
  split
  · rename_i closed
    rw [closed] at isOpen
    cases isOpen
  · rfl

theorem Pass.filter_closing (p : PassId) (pass : Pass) :
    (pass.closing p).filter Event.isCaught = [] := by
  unfold closing
  split <;> rfl

namespace World

/-- What a pass has made known by itself, the latest first. -/
def announced (w : World) (p : PassId) : List Event :=
  w.history.filter fun event => event.announcer? = some p

/-- The panics that were caught in a pass, the latest first. -/
def caughtOf (w : World) (p : PassId) : List Event := (w.announced p).filter Event.isCaught

def closing (w : World) (p : PassId) : List Event := w.passes[p]?.elim [] (Pass.closing p)

theorem closing_of_found {w : World} {p : PassId} {pass : Pass} (found : w.passes[p]? = some pass) :
    w.closing p = pass.closing p := by
  rw [closing, found, Option.elim_some]

theorem filter_closing (w : World) (p : PassId) : (w.closing p).filter Event.isCaught = [] := by
  unfold closing
  cases w.passes[p]? with
  | none => rfl
  | some pass => exact pass.filter_closing p

theorem announced_record (w : World) (event : Event) (p : PassId) : (w.record event).announced p =
    if event.announcer? = some p then event :: w.announced p else w.announced p := by
  simp only [announced, record, List.filter_cons, decide_eq_true_eq]

/-- Of other events nothing is made known by a pass. -/
theorem announced_record_other (w : World) {event : Event} (other : event.announcer? = none) :
    (w.record event).announced = w.announced := by
  funext p
  rw [announced_record, other, if_neg (by simp)]

theorem announced_release (w : World) (h : HandlerId) :
    (w.release h).announced = w.announced := by
  unfold release
  split
  · exact announced_record_other (w.letGo h) rfl
  · rfl

theorem announced_foldl {α : Type} {f : World → α → World}
    (step : ∀ w a, (f w a).announced = w.announced) (l : List α) (w : World) :
    (l.foldl f w).announced = w.announced := by
  induction l generalizing w with
  | nil => rfl
  | cons a l ih => exact (ih (f w a)).trans (step w a)

theorem announced_releaseAll (w : World) (hs : List HandlerId) :
    (w.releaseAll hs).announced = w.announced := announced_foldl announced_release hs w

theorem announced_retainAll (w : World) (hs : List HandlerId) :
    (w.retainAll hs).announced = w.announced :=
  announced_foldl (f := retain) (fun _ _ => rfl) hs w

theorem announced_rouse (w : World) (calls : List CallId) :
    (w.rouse calls).announced = w.announced := by
  obtain ⟨waking, h⟩ := rouse_eq w calls
  exact h ▸ rfl

theorem announced_wake (w : World) (call : CallId) : (w.wake call).announced = w.announced := by
  obtain ⟨waking, h⟩ := wake_eq w call
  exact h ▸ rfl

theorem announced_tell (w : World) (p : PassId) (i : Nat) (h : HandlerId) (note : Note) :
    (w.tell p i h note).announced = w.announced := announced_record_other w rfl

theorem announced_returnPermit (w : World) (p : PassId) :
    (w.returnPermit p).announced = w.announced := by
  unfold returnPermit
  split
  · split
    · exact announced_wake _ _
    · rfl
  · rfl

theorem announced_retire (w : World) (p : PassId) (i : Nat) (h : HandlerId)
    (error : Option CallError) : (w.retire p i h error).announced = w.announced :=
  (announced_returnPermit _ p).trans (announced_release _ h)

theorem announced_cutCall (w : World) (p : PassId) (i : Nat) (h : HandlerId) :
    (w.cutCall p i h).announced = w.announced := announced_record_other (w.setTally _) rfl

theorem announced_returnCall (w : World) (p : PassId) (i : Nat) (h : HandlerId)
    (error : Option CallError) : (w.returnCall p i h error).announced = w.announced :=
  (announced_retire _ p i h error).trans (announced_record_other (w.setTally _) rfl)

theorem announced_beginCall (w : World) (p : PassId) (i : Nat) (pass : Pass) (call : Call) :
    (w.beginCall p i pass call).announced = w.announced := by
  unfold beginCall
  split
  · exact announced_record_other _ rfl
  · rfl

theorem announced_abandonCall (w : World) (p : PassId) (i : Nat) :
    (w.abandonCall p i).announced = w.announced := by
  unfold abandonCall
  split
  · split
    · exact (announced_release _ _).trans (announced_cutCall w p i _)
    · split
      · exact announced_release _ _
      · rfl
  · rfl

theorem announced_abandonCalls (w : World) (p : PassId) (pass : Pass) :
    (w.abandonCalls p pass).announced = w.announced :=
  announced_foldl (fun w i => announced_abandonCall w p i) _ w

theorem announced_dropGuard (w : World) (guard : Guard) :
    (w.dropGuard guard).announced = w.announced := by
  obtain ⟨_ | d, key, generation⟩ := guard
  · rfl
  · unfold dropGuard releaseGuard
    dsimp only
    split
    · exact announced_record_other (w.setRegistry d _) rfl
    · exact announced_record_other w rfl

theorem Deed.announced {w w' : World} (deed : Deed w w') : w'.announced = w.announced := by
  cases deed with
  | drop found owned => exact announced_release _ _
  | unregisterEmpty d => rw [setRegistry_remove_nowhere]; rfl
  | dropGuard found => exact announced_dropGuard w _
  | _ => rfl

theorem announced_performAll (w : World) (actions : List Action) :
    (w.performAll actions).1.announced = w.announced := by
  induction actions generalizing w with
  | nil => rfl
  | cons action actions ih => exact (ih _).trans (Deed.perform w action).announced

theorem announced_summon {w started : World} {caller : Option (CallId × Pass)} {summons : Summons}
    {q : PassId} (h : w.summon caller summons = .ok (q, started)) :
    started.announced = w.announced := by
  obtain ⟨d, token, -, made⟩ := summon_eq_ok h
  cases made
  rfl

theorem announced_catchPanic (w : World) (p : PassId) (i : Nat) (d : DispatcherId) (call : Call)
    (payload : Payload) (q : PassId) : (w.catchPanic p i d call payload).announced q =
      if p = q then .caught p i d call.name payload.info :: w.announced q else w.announced q := by
  unfold catchPanic
  rw [announced_retire, announced_record, announced_cutCall]
  simp only [Event.announcer?, Option.some.injEq]

theorem announced_close {w : World} {p : PassId} {pass : Pass} (found : w.passes[p]? = some pass)
    (ending : Ending) (q : PassId) : (w.close p ending).announced q =
      if p = q then .closed p pass.dispatcher ending :: w.announced q else w.announced q := by
  rw [close_eq found, announced_record]
  simp only [Event.announcer?, Option.some.injEq]
  rfl

theorem announced_abandonPass {w : World} {p : PassId} {pass : Pass}
    (found : w.passes[p]? = some pass) (isOpen : pass.phase.isOpen = true) (ending : Ending)
    (q : PassId) : (w.abandonPass p ending).announced q =
      if p = q then .closed p pass.dispatcher ending :: w.announced q else w.announced q := by
  have here := passes_abandonCalls found ▸ getElem?_set_of_some _ found
  rw [abandonPass_eq found isOpen, announced_close here, announced_abandonCalls]

/-- What a step that does not open the pass adds to what the pass has made known. -/
inductive Utters (w : World) (p : PassId) (w' : World) : Prop
  | nothing (announced : w'.announced p = w.announced p) (closing : w'.closing p = w.closing p)
  | catches {i : Nat} {d : DispatcherId} {name info : String} (running : w.closing p = [])
      (still : w'.closing p = [])
      (announced : w'.announced p = .caught p i d name info :: w.announced p)
  | closes (running : w.closing p = [])
      (announced : w'.announced p = w'.closing p ++ w.announced p)

section
variable {w w' : World} {q : PassId} {old new : Pass} (found : w.passes[q]? = some old)
  (passes : w'.passes = w.passes.set q new)
include found passes

theorem closing_of_set (p : PassId) :
    w'.closing p = if q = p then new.closing p else w.closing p := by
  unfold closing
  rw [passes]
  split
  · rename_i same
    subst same
    rw [getElem?_set_of_some _ found, Option.elim_some]
  · rename_i other
    rw [List.getElem?_set_ne other]

theorem Utters.of_running (running : old.phase = .running) (still : new.phase = .running)
    (announced : w'.announced = w.announced) (p : PassId) : w.Utters p w' := by
  refine .nothing (by rw [announced]) ?_
  rw [closing_of_set found passes]
  split
  · rename_i same
    subst same
    rw [closing_of_found found, Pass.closing_of_running running, Pass.closing_of_running still]
  · rfl

theorem Utters.of_closed {ending : Ending} (isOpen : old.phase.isOpen = true)
    (closed : new.phase = .closed ending) (same : new.dispatcher = old.dispatcher)
    (announced : ∀ p, w'.announced p =
      if q = p then .closed q old.dispatcher ending :: w.announced p else w.announced p)
    (p : PassId) : w.Utters p w' := by
  have closing := closing_of_set found passes p
  have told := announced p
  by_cases hqp : q = p
  · subst hqp
    rw [if_pos rfl] at closing told
    refine .closes (by rw [closing_of_found found, Pass.closing_of_isOpen isOpen]) ?_
    rw [told, closing, Pass.closing, closed, same]
    rfl
  · rw [if_neg hqp] at closing told
    exact .nothing told closing

end

theorem Change.utters {w w' : World} (change : Change w w') (p : PassId) : w.Utters p w' := by
  cases change with
  | deed deed =>
    refine .nothing (by rw [deed.announced]) ?_
    unfold closing
    rw [deed.passes]
  | @start d named token sender args lineage caller =>
    refine .nothing rfl ?_
    unfold closing
    simp only [World.start, List.getElem?_append]
    split
    · rfl
    · rename_i beyond
      rw [List.getElem?_eq_none (Nat.not_lt.mp beyond)]
      cases p - w.passes.length <;> rfl
  | @queue q i pass call permits call_of idle limited short =>
    have first := passes_setPermits call_of.found (permits.enqueue i)
    have passes := passes_setStatus (first ▸ getElem?_set_of_some _ call_of.found) i .queued
    rw [first, List.set_set] at passes
    exact .of_running call_of.found passes call_of.running call_of.running rfl p
  | @begin q i pass call admitted call_of admits =>
    obtain ⟨_, pass', -, running, passes, -⟩ := beginCall_becomes call_of admits False
    refine .of_running call_of.found passes call_of.running running ?_ p
    rw [announced_beginCall]
    cases admits <;> rfl
  | proceed call_of begun after rest waits =>
    exact .of_running call_of.found (passes_setStatus call_of.found _ _) call_of.running
      call_of.running rfl p
  | returnCall call_of begun error =>
    exact .of_running call_of.found (passes_returnCall call_of.found _ _ _) call_of.running
      ((Pass.retire_same _ _ _).2.2.trans call_of.running) (announced_returnCall ..) p
  | @catchPanic q i pass call call_of begun isolated payload =>
    have passes := passes_catchPanic call_of.found i pass.dispatcher call payload
    have still := (pass.retire_same i (some (.panicked payload.info))).2.2.trans call_of.running
    have closing := closing_of_set call_of.found passes p
    have told := announced_catchPanic w q i pass.dispatcher call payload p
    by_cases hqp : q = p
    · subst hqp
      rw [if_pos rfl] at closing told
      refine .catches ?_ (closing.trans (Pass.closing_of_running still)) told
      rw [closing_of_found call_of.found, Pass.closing_of_running call_of.running]
    · rw [if_neg hqp] at closing told
      exact .nothing told closing
  | complete found running finished =>
    exact .of_closed found (passes_close found _) (by rw [running]; rfl) rfl rfl
      (announced_close found _) p
  | giveUp found isOpen incomplete unisolated =>
    exact .of_closed found (passes_abandonPass found isOpen _) isOpen rfl rfl
      (announced_abandonPass found isOpen _) p

def sweepEvents (w : World) (p : PassId) (d : DispatcherId) (dead : Nat) : List Event :=
  if dead = 0 then [] else [.purged d (some p) ((w.registry d).purge w.alive).1]

theorem filter_sweepEvents (w : World) (p : PassId) (d : DispatcherId) (dead : Nat) :
    (w.sweepEvents p d dead).filter Event.isCaught = [] := by
  unfold sweepEvents
  split <;> rfl

theorem announced_sweep (w : World) (p : PassId) (d : DispatcherId) (dead : Nat) (q : PassId) :
    (w.sweep p d dead).announced q =
      (if p = q then w.sweepEvents p d dead else []) ++ w.announced q := by
  unfold sweep sweepEvents purge
  dsimp only
  split
  · simp
  · rw [announced_record]
    simp only [Event.announcer?, Option.some.injEq]
    split <;> rfl

/-- What a pass makes known before its calls, the latest first: whom it found alive, and its sweep,
for which it comes to another world if others act in between. -/
def surveyEvents (w : World) (p : PassId) (d : DispatcherId) (amid : World) : List Event :=
  .opened p d (w.snapshotOf d).live (w.snapshotOf d).dead ::
    amid.sweepEvents p d (w.snapshotOf d).dead

theorem filter_surveyEvents (w : World) (p : PassId) (d : DispatcherId) (amid : World) :
    (w.surveyEvents p d amid).filter Event.isCaught = [] :=
  (List.filter_cons_of_neg (by simp [Event.isCaught])).trans (filter_sweepEvents ..)

theorem announced_surveyAmid (w : World) (p : PassId) (d : DispatcherId) (others : List Action)
    (q : PassId) : (w.surveyAmid p d others).announced q =
      (if p = q then
        w.surveyEvents p d ((w.retainAll (w.snapshotOf d).live).performAll others).1 else []) ++
        w.announced q := by
  have before : ((w.retainAll (w.snapshotOf d).live).performAll others).1.announced q =
      w.announced q := by
    rw [announced_performAll, announced_retainAll]
  unfold surveyAmid
  rw [announced_record, announced_sweep, before]
  simp only [Event.announcer?, Option.some.injEq]
  split <;> rfl

theorem announced_survey (w : World) (p : PassId) (d : DispatcherId) (q : PassId) :
    (w.survey p d).announced q =
      (if p = q then w.surveyEvents p d (w.retainAll (w.snapshotOf d).live) else []) ++
        w.announced q :=
  announced_surveyAmid w p d [] q

theorem announced_setCalls (w : World) (p : PassId) (calls : List Call) (permits : Option Permits)
    (due : List Nat) : ((w.setCalls p calls permits).makeDue p due).announced = w.announced := rfl

theorem announced_openPass {w : World} {p : PassId} {pass : Pass}
    (found : w.passes[p]? = some pass) (q : PassId) : (w.openPass p pass).1.announced q =
      (if p = q then (w.openPass p pass).1.closing q else []) ++
        (w.survey p pass.dispatcher).announced q := by
  cases read : (w.survey p pass.dispatcher).readNames (w.snapshotOf pass.dispatcher).live with
  | ok names =>
    have running : (w.openPass p pass).1.closing p = [] := by
      have opened := passes_openPass_ok found read ▸ getElem?_set_of_some _ found
      rw [closing_of_found opened, Pass.closing_of_running rfl]
    have told : (w.openPass p pass).1.announced q = (w.survey p pass.dispatcher).announced q := by
      rw [openPass_ok read, announced_setCalls]
    split
    · rename_i same
      rw [told, ← same, running, List.nil_append]
    · rw [told, List.nil_append]
  | error payload =>
    have refused := passes_openPass_error found read ▸ getElem?_set_of_some _ found
    have released : ((w.survey p pass.dispatcher).releaseAll
        (w.snapshotOf pass.dispatcher).live).passes[p]? = some pass := by
      rwa [passes_releaseAll, passes_survey]
    have told : (w.openPass p pass).1.announced q =
        if p = q then .closed p pass.dispatcher (.panicked payload) ::
          (w.survey p pass.dispatcher).announced q
        else (w.survey p pass.dispatcher).announced q := by
      rw [openPass_error read, announced_close released, announced_releaseAll]
    rw [told]
    split
    · rename_i same
      rw [← same, closing_of_found refused]
      rfl
    · rfl

/-- The first poll of another pass does not concern this one. -/
theorem opening_utters {w : World} {p q : PassId} {pass : Pass} (found : w.passes[q]? = some pass)
    (other : q ≠ p) : w.Utters p (w.openPass q pass).1 := by
  refine .nothing ?_ ?_
  · rw [announced_openPass found, if_neg other, announced_survey, if_neg other]
    rfl
  · cases read : (w.survey q pass.dispatcher).readNames (w.snapshotOf pass.dispatcher).live with
    | ok names => rw [closing_of_set found (passes_openPass_ok found read), if_neg other]
    | error payload => rw [closing_of_set found (passes_openPass_error found read), if_neg other]

/-- What a pass has made known are the panics that were caught in it, after what it made known
before, and last that it is closed. -/
def Ordered (w : World) (p : PassId) (before : List Event) : Prop :=
  w.announced p = w.closing p ++ (w.caughtOf p ++ before)

theorem Ordered.utters {w w' : World} {p : PassId} {before : List Event} (h : w.Ordered p before)
    (utters : w.Utters p w') : w'.Ordered p before := by
  unfold Ordered at h ⊢
  cases utters with
  | nothing announced closing => rw [caughtOf, announced, closing, ← caughtOf, h]
  | catches running still announced =>
    rw [running, List.nil_append] at h
    rw [caughtOf, announced, still, List.filter_cons_of_pos rfl, ← caughtOf, List.nil_append,
      List.cons_append, ← h]
  | closes running announced =>
    rw [running, List.nil_append] at h
    rw [caughtOf, announced, List.filter_append, filter_closing, List.nil_append, ← caughtOf, ← h]

theorem Ordered.changes {w w' : World} {p : PassId} {before : List Event} (h : w.Ordered p before)
    (changes : w.Changes w') : w'.Ordered p before := by
  induction changes with
  | refl => exact h
  | tail _ change ih => exact ih.utters (change.utters p)

/-- A pass that was opened is not opened again. -/
theorem Ordered.leads {w w' : World} {p : PassId} {before : List Event} (h : w.Ordered p before)
    {plan : List (HandlerId × String)} (opened : w.Opened p plan) (leads : w.Leads w') :
    w'.Ordered p before := by
  induction leads with
  | refl => exact h
  | @tail middle last earlier progress ih =>
    cases progress with
    | change change => exact ih.utters (change.utters p)
    | @opening q pass found fresh =>
      refine ih.utters (opening_utters found ?_)
      rintro rfl
      obtain ⟨other, found', not_fresh, -⟩ := Leads.opened earlier opened
      rw [found, Option.some.injEq] at found'
      exact not_fresh (found' ▸ fresh)

/-- What is made known of a panic of the pass, given with the position of the call that it ends. -/
def catches (w : World) (p : PassId) (panic : Nat × Payload) : Option Event :=
  w.passes[p]?.bind fun pass =>
    if (w.settings pass.dispatcher).isolatePanics then
      pass.plan[panic.1]?.map fun planned =>
        .caught p panic.1 pass.dispatcher planned.2 panic.2.info
    else none

theorem catches_of_found {w : World} {p : PassId} {pass : Pass} (found : w.passes[p]? = some pass)
    (panic : Nat × Payload) : w.catches p panic =
      if (w.settings pass.dispatcher).isolatePanics then
        pass.plan[panic.1]?.map fun planned =>
          .caught p panic.1 pass.dispatcher planned.2 panic.2.info
      else none := by
  rw [catches, found, Option.bind_some]

theorem caughtOf_of_announced {w w' : World} (announced : w'.announced = w.announced) :
    w'.caughtOf = w.caughtOf := by
  funext p
  rw [caughtOf, announced, caughtOf]

theorem caughtOf_close (w : World) (p : PassId) (ending : Ending) :
    (w.close p ending).caughtOf = w.caughtOf := by
  funext q
  cases found : w.passes[p]? with
  | none => simp only [close, found]
  | some pass =>
    rw [caughtOf, announced_close found]
    split <;> rfl

theorem caughtOf_abandonPass (w : World) (p : PassId) (ending : Ending) :
    (w.abandonPass p ending).caughtOf = w.caughtOf := by
  unfold abandonPass
  split
  · split
    · rw [caughtOf_close, caughtOf_of_announced (announced_abandonCalls ..)]
    · rfl
  · rfl

theorem caughtOf_abandon (w : World) (p : PassId) (ending : Ending) :
    (w.abandon p ending).caughtOf = w.caughtOf := by
  have all : ∀ (qs : List PassId) (v : World),
      (qs.foldl (fun w q => w.abandonPass q .dropped) v).caughtOf = v.caughtOf := by
    intro qs
    induction qs with
    | nil => exact fun v => rfl
    | cons q qs ih => exact fun v => (ih _).trans (caughtOf_abandonPass v q .dropped)
  exact (caughtOf_abandonPass _ p ending).trans (all _ w)

theorem caughtOf_openPass {w : World} {p : PassId} {pass : Pass}
    (found : w.passes[p]? = some pass) : (w.openPass p pass).1.caughtOf = w.caughtOf := by
  funext q
  have surveyed : ((w.survey p pass.dispatcher).announced q).filter Event.isCaught =
      w.caughtOf q := by
    rw [announced_survey, List.filter_append, ← caughtOf]
    split
    · rw [filter_surveyEvents, List.nil_append]
    · rfl
  rw [caughtOf, announced_openPass found, List.filter_append, surveyed]
  split
  · rw [filter_closing, List.nil_append]
  · rfl

theorem Ordered.opened {w : World} {p : PassId} {pass : Pass} (found : w.passes[p]? = some pass)
    (silent : w.announced p = []) : (w.openPass p pass).1.Ordered p
      (w.surveyEvents p pass.dispatcher
        (w.retainAll (w.snapshotOf pass.dispatcher).live)) := by
  have uncaught : w.caughtOf p = [] := by rw [caughtOf, silent, List.filter_nil]
  rw [Ordered, caughtOf_openPass found, uncaught, announced_openPass found, if_pos rfl,
    announced_survey, if_pos rfl, silent, List.append_nil, List.nil_append]

theorem announced_take (w : World) (p : PassId) (i : Nat) (pass : Pass) (h : HandlerId)
    (step : Step) : (w.take p i pass h step).1.announced = w.announced := by
  cases step with
  | say text => exact announced_tell w p i h _
  | linger times => cases times <;> rfl
  | arrive gate expected => exact (Deed.arriveAt w gate).announced
  | failBelow bound => simp only [take]; split <;> rfl
  | failFor sender => simp only [take]; split <;> rfl
  | checkToken => simp only [take]; split <;> rfl
  | cancelToken => exact (Deed.cancelToken w pass.token).announced
  | showToken => exact announced_tell w p i h _
  | raise summons propagate =>
    simp only [take]
    split
    · rename_i summoned
      exact announced_summon summoned
    · exact announced_tell w p i h _
  | act action propagate =>
    have done := (Deed.perform w action).announced
    simp only [take]
    unfold afterAction
    split
    · rename_i result
      rw [result] at done
      split
      · exact done
      · exact (announced_tell _ p i h _).trans done
    · rename_i result
      rw [result] at done
      exact (announced_tell _ p i h _).trans done
  | _ => rfl

end World

namespace Machine
open World
variable (w : World) (p : PassId) (frame : Frame) (outer : List Frame)

/-- The panic that is about to end a call of the pass, with the position of that call. -/
def panicIn (p : PassId) (m : Machine) : Option (Nat × Payload) :=
  m.panicking?.bind fun panic =>
    if panic.1.pass = p then some (panic.1.position, panic.2) else none

/-- The panics that end calls of the pass in a run, the first one first. A call that returns an
error is none of them, whatever the error is. -/
def panicsIn (p : PassId) (m : Machine) : List Move → List (Nat × Payload)
  | [] => []
  | move :: moves =>
      (if move = .tick then (m.panicIn p).toList else []) ++ panicsIn p (m.move move) moves

theorem announced_pause : (pause frame outer w).world.announced = w.announced := by
  have waits : ∀ (off : Bool) (turn : Turn) (lineage : List CallId),
      (if off then (⟨w.rouse lineage, .leaving frame.pass outer⟩ : Machine)
        else ⟨w, .choosing turn outer⟩).world.announced = w.announced := by
    intro off turn lineage
    split
    · exact announced_rouse w lineage
    · rfl
  unfold pause
  split
  · dsimp only
    split
    · exact waits _ _ _
    · rfl
  · rfl

theorem announced_yield : (yield frame outer w).world.announced = w.announced :=
  (announced_pause _ frame outer).trans (announced_wake w _)

theorem announced_leave : (leave w p outer).world.announced = w.announced := by
  cases outer with
  | cons frame frames => exact announced_pause w frame frames
  | nil =>
    unfold leave
    dsimp only
    split <;> rfl

theorem announced_deliver (error : Option DispatchError) :
    (deliver w error outer).world.announced = w.announced := by
  cases outer with
  | nil => rfl
  | cons frame frames =>
    unfold deliver
    dsimp only
    split
    · split
      · rfl
      · exact announced_tell w _ _ _ _
    · rfl

theorem announced_afterStep (number : Nat) (rest : Script) (result : World × Effect) :
    (afterStep frame outer number rest result).world.announced = result.1.announced := by
  obtain ⟨after, effect⟩ := result
  cases effect with
  | giveWay turns => exact announced_yield _ frame outer
  | _ => rfl

theorem announced_visitRunning (pass : Pass) (h : HandlerId) (number : Nat) (await : Await)
    (rest : Script) :
    (visitRunning w frame outer pass h number await rest).world.announced = w.announced := by
  unfold visitRunning
  split
  · split
    · exact (announced_afterStep frame outer number _ _).trans (announced_take w _ _ pass h _)
    · rfl
  · exact announced_yield _ frame outer
  · rfl
  · split
    · rfl
    · exact (announced_pause _ frame outer).trans (Deed.await w _ _ _).announced

theorem announced_visit (pass : Pass) (call : Call) :
    (visit w frame outer pass call).world.announced = w.announced := by
  unfold visit
  split
  · split
    · exact announced_beginCall w _ _ pass call
    · split
      · exact announced_beginCall _ _ _ pass call
      · exact announced_pause _ frame outer
  · exact announced_pause w frame outer
  · exact announced_beginCall w _ _ pass call
  · exact announced_visitRunning w frame outer pass _ _ _ _
  · rfl
  · rfl

theorem announced_poll : (poll w frame outer).world.announced = w.announced := by
  unfold poll
  split
  · exact announced_visit w frame outer _ _
  · rfl

theorem caughtOf_choose (turn : Turn) : (choose w turn outer).world.caughtOf = w.caughtOf := by
  have ended : (endTurn w turn.pass outer).world.caughtOf = w.caughtOf := by
    unfold endTurn
    split
    · split
      · rw [caughtOf_of_announced (announced_deliver _ outer _), caughtOf_close]
      · rfl
    · rfl
  unfold choose
  split
  · split
    · split <;> rfl
    · rfl
  · exact ended

theorem caughtOf_enter : (enter w p outer).world.caughtOf = w.caughtOf := by
  unfold enter
  split
  · rename_i pass found
    split
    · rw [← caughtOf_openPass found]
      unfold afterOpening
      split
      · rename_i opened result
        rw [result]
        rfl
      · rename_i opened payload result
        rw [result]
    · split <;> rfl
    · rfl
  · rfl

/-- A panic that ends a call is made known if the pass isolates panics, and nothing is if the call
returns. -/
theorem caughtOf_conclude {frames : List Frame} (h : Concluding w.passes frames)
    (verdict : Verdict) : (conclude w verdict frames).world.caughtOf p =
      ((panicIn p ⟨w, .ending verdict frames⟩).bind (w.catches p)).toList ++ w.caughtOf p := by
  cases frames with
  | nil => cases verdict <;> rfl
  | cons frame outer =>
    obtain ⟨-, pass, call, found, at_position, -⟩ := h
    have here : w.call? frame.pass frame.call = some call := by
      rw [call?_of_found found, at_position]
    have planned : pass.plan[frame.call]? = some (call.handler, call.name) := by
      rw [Pass.plan, List.getElem?_map, at_position, Option.map_some]
    cases verdict with
    | returned error =>
      simp only [conclude, found, here]
      exact congrFun (caughtOf_of_announced (announced_returnCall w _ _ _ error)) p
    | panicked payload =>
      simp only [conclude, found, here, panicIn, panicking?, Option.bind_some, Frame.callId]
      cases isolated : (w.settings pass.dispatcher).isolatePanics with
      | true =>
        rw [if_pos rfl]
        show ((w.catchPanic _ _ _ call payload).announced p).filter Event.isCaught = _
        rw [announced_catchPanic]
        split
        · rename_i same
          rw [Option.bind_some, ← same, catches_of_found found, isolated, if_pos rfl, planned]
          rfl
        · rfl
      | false =>
        rw [if_neg (by simp)]
        show (w.abandon _ _).caughtOf p = _
        rw [caughtOf_abandon]
        split
        · rename_i same
          rw [Option.bind_some, ← same, catches_of_found found, isolated, if_neg (by simp)]
          rfl
        · rfl

theorem caughtOf_move {m : Machine} (h : m.Steady) (move : Move) :
    (m.move move).world.caughtOf p =
      ((if move = .tick then panicIn p m else none).bind (m.world.catches p)).toList ++
        m.world.caughtOf p := by
  cases move with
  | tick =>
    rw [if_pos rfl]
    obtain ⟨w, control⟩ := m
    cases control with
    | entering q outer => exact congrFun (caughtOf_enter w q outer) p
    | choosing turn outer => exact congrFun (caughtOf_choose w outer turn) p
    | polling frame outer =>
      exact congrFun (caughtOf_of_announced (announced_poll w frame outer)) p
    | leaving q outer => exact congrFun (caughtOf_of_announced (announced_leave w q outer)) p
    | ending verdict frames => exact caughtOf_conclude w p h.positioned verdict
    | settled ending => rfl
  | act action => exact congrFun (caughtOf_of_announced (Deed.perform m.world action).announced) p
  | start summons =>
    unfold Machine.move
    dsimp only
    split
    · rename_i summoned
      exact congrFun (caughtOf_of_announced (announced_summon summoned)) p
    · rfl
  | poll q =>
    unfold Machine.move
    dsimp only
    split <;> rfl
  | suspend =>
    unfold Machine.move
    dsimp only
    split <;> rfl
  | drop q =>
    unfold Machine.move
    dsimp only
    split
    · exact congrFun (caughtOf_abandon m.world q .dropped) p
    · rfl
  | reorder d order =>
    exact congrFun (caughtOf_of_announced (Deed.reorder m.world d order).announced) p

/-- From the first poll of a pass on, it stands what is made known of a panic of it. -/
theorem catches_of_opened {w w' : World} (reached : w.Reached) {p : PassId}
    {plan : List (HandlerId × String)} (opened : w.Opened p plan) (leads : w.Leads w') :
    w'.catches p = w.catches p := by
  obtain ⟨pass, found, -, same_plan⟩ := id opened
  obtain ⟨pass', found', -, same_plan'⟩ := Leads.opened leads opened
  obtain ⟨last, found_last, -, same⟩ := Leads.keeps leads found
  rw [found', Option.some.injEq] at found_last
  subst found_last
  have settings := Leads.settings leads (reached.belongs found)
  funext panic
  rw [catches_of_found found, catches_of_found found', same_plan, same_plan', same, settings]

/-- The pass of a call that ends was opened, and the call is one of its plan. -/
theorem opened_of_panicIn {m : Machine} (h : m.Steady) {p : PassId} {panic : Nat × Payload}
    (ends : m.panicIn p = some panic) :
    ∃ plan, m.world.Opened p plan ∧ panic.1 < plan.length := by
  obtain ⟨⟨call, payload⟩, panics, ends⟩ := Option.bind_eq_some_iff.mp ends
  obtain ⟨frame, outer, control, rfl⟩ := panicking?_eq_some panics
  dsimp only at ends
  split at ends
  · rename_i same
    cases ends
    obtain ⟨turning, pass, call, found, at_position, -⟩ := h.concluding control
    refine ⟨pass.plan, ⟨pass, same ▸ found, ?_, rfl⟩, ?_⟩
    · rw [turning.phase found]
      simp
    · rw [Pass.plan, List.length_map]
      exact (List.getElem?_eq_some_iff.mp at_position).1
  · cases ends

/-- In a run, what is made known of panics in a pass are the panics that end its calls, if it
isolates panics, one for each. -/
theorem caughtOf_run {m : Machine} (h : m.Steady) (p : PassId) (moves : List Move) :
    (m.run moves).world.caughtOf p =
      ((m.panicsIn p moves).filterMap ((m.run moves).world.catches p)).reverse ++
        m.world.caughtOf p := by
  induction moves generalizing m with
  | nil => rfl
  | cons move moves ih =>
    obtain ⟨leads, steady⟩ := move_steady h move
    have rest := (run_steady steady moves).1
    have same : ((if move = .tick then m.panicIn p else none).bind (m.world.catches p)) =
        (if move = .tick then m.panicIn p else none).bind
          (((m.move move).run moves).world.catches p) := by
      split
      · cases ends : m.panicIn p with
        | none => rfl
        | some panic =>
          obtain ⟨plan, opened, -⟩ := opened_of_panicIn h ends
          rw [catches_of_opened h.reached opened (leads.trans rest)]
      · rfl
    show ((m.move move).run moves).world.caughtOf p = _
    rw [ih steady, caughtOf_move p h, same]
    show _ = ((panicsIn p m (move :: moves)).filterMap
      (((m.move move).run moves).world.catches p)).reverse ++ _
    rw [panicsIn, List.filterMap_append, List.reverse_append, List.append_assoc]
    congr 2
    split
    · cases m.panicIn p with
      | none => rfl
      | some panic => cases hc : ((m.move move).run moves).world.catches p panic <;> simp [hc]
    · rfl

theorem panicsIn_lt {m : Machine} (h : m.Steady) {p : PassId} {moves : List Move}
    {plan : List (HandlerId × String)} (opened : (m.run moves).world.Opened p plan) :
    ∀ panic ∈ m.panicsIn p moves, panic.1 < plan.length := by
  induction moves generalizing m with
  | nil => simp [panicsIn]
  | cons move moves ih =>
    obtain ⟨leads, steady⟩ := move_steady h move
    intro panic member
    rw [panicsIn, List.mem_append] at member
    rcases member with now | later
    · have ends : m.panicIn p = some panic := by
        split at now
        · exact Option.mem_toList.mp now
        · cases now
      obtain ⟨plan', opened', small⟩ := opened_of_panicIn h ends
      obtain ⟨pass, found, -, rfl⟩ := opened
      obtain ⟨pass', found', -, rfl⟩ :=
        Leads.opened (leads.trans (run_steady steady moves).1) opened'
      have same : some pass = some pass' := found.symm.trans found'
      rwa [Option.some.inj same]
    · exact ih steady opened panic later

theorem move_ordered {m : Machine} (h : m.Steady) {move : Move} {p : PassId} {before : List Event}
    (other : ¬ (m.isOpening p = true ∧ move = .tick)) (ordered : m.world.Ordered p before) :
    (m.move move).world.Ordered p before := by
  by_cases plain : move = .tick → ∀ q, m.isOpening q = false
  · exact ordered.changes (move_follows h plain).changes
  · simp only [Classical.not_imp, not_forall, Bool.not_eq_false] at plain
    obtain ⟨rfl, q, opening⟩ := plain
    obtain ⟨pass, found, fresh, follows⟩ := move_opening h opening
    have different : q ≠ p := fun same => other ⟨same ▸ opening, rfl⟩
    exact (ordered.utters (opening_utters found different)).changes follows.changes

theorem run_ordered {m : Machine} (h : m.Steady) {p : PassId} {moves : List Move}
    {before : List Event} (never : m.openingOf p moves = none)
    (ordered : m.world.Ordered p before) : (m.run moves).world.Ordered p before := by
  induction moves generalizing m with
  | nil => exact ordered
  | cons move moves ih =>
    unfold openingOf at never
    split at never
    · cases never
    · rename_i other
      simp only [Bool.and_eq_true, decide_eq_true_eq] at other
      exact ih (move_steady h move).2 never (move_ordered h other ordered)

/-- A pass that was never polled has made known at most that it is closed. -/
theorem announced_of_never (arity : Arity) (blueprints : List Blueprint) {p : PassId}
    {moves : List Move} (never : (idle arity blueprints).openingOf p moves = none) :
    let w := ((idle arity blueprints).run moves).world
    w.announced p = w.closing p ∧ w.caughtOf p = [] := by
  intro w
  have steady := steady_idle arity blueprints
  have unopened : w.Unopened p := run_unopened steady never (by simp [World.Unopened, idle])
  have uncaught : w.catches p = fun _ => none := by
    funext panic
    unfold catches
    cases found : w.passes[p]? with
    | none => rfl
    | some pass =>
      rw [Option.bind_some, Pass.plan, (unopened pass found).1]
      split <;> rfl
  have caught : w.caughtOf p = [] := by
    have counted := caughtOf_run steady p moves
    change w.caughtOf p = ((panicsIn p _ moves).filterMap (w.catches p)).reverse ++ [] at counted
    rw [counted, uncaught, List.filterMap_none]
    rfl
  have ordered : w.announced p = w.closing p ++ (w.caughtOf p ++ []) :=
    run_ordered steady never rfl
  rw [caught, List.append_nil, List.append_nil] at ordered
  exact ⟨ordered, caught⟩

theorem announced_of_fresh (arity : Arity) (blueprints : List Blueprint) {p : PassId}
    {moves : List Move} (never : (idle arity blueprints).openingOf p moves = none) {pass : Pass}
    (found : ((idle arity blueprints).run moves).world.passes[p]? = some pass)
    (fresh : pass.phase = .fresh) :
    ((idle arity blueprints).run moves).world.announced p = [] := by
  rw [(announced_of_never arity blueprints never).1, closing_of_found found,
    Pass.closing_of_isOpen (by rw [fresh]; rfl)]

/-- Before the first poll of a pass there was none. -/
theorem openingOf_first {p : PassId} {m : Machine} {moves : List Move} {opening : World}
    (h : m.openingOf p moves = some opening) :
    ∃ before after, moves = before ++ .tick :: after ∧ m.openingOf p before = none ∧
      (m.run before).isOpening p = true ∧ (m.run before).world = opening := by
  induction moves generalizing m with
  | nil => cases h
  | cons move moves ih =>
    unfold openingOf at h
    split at h
    · rename_i now
      simp only [Bool.and_eq_true, decide_eq_true_eq] at now
      exact ⟨[], moves, by rw [now.2]; rfl, rfl, now.1, Option.some.inj h⟩
    · rename_i other
      obtain ⟨before, after, rfl, never, opening, reaches⟩ := ih h
      exact ⟨move :: before, after, rfl, by rw [openingOf, if_neg other, never], opening, reaches⟩

end Machine
end Fanout
