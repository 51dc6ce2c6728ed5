import Fanout.Proofs.Metering

/-! The books that are kept of all calls. The history tells which calls began and which are over,
the tally counts them, and every handler counts its own. Whatever happens in a world is a sequence
of entries, each about one call at most: it begins, it is over, or it is given up before it began;
every other change leaves the books and all calls as far as they have come. -/
namespace Fanout

/-- How far a call has come. A call that is running has a number among the calls of its handler. -/
inductive Stage
  | waiting
  | running (handler : HandlerId) (number : Nat)
  | done
  deriving DecidableEq

def Call.stage (call : Call) : Stage :=
  match call.status with
  | .running number _ _ => .running call.handler number
  | .finished _ => .done
  | .abandoned => .done
  | _ => .waiting

theorem Call.stage_of_isRunning {call : Call} (running : call.status.isRunning = true) :
    ∃ number, call.stage = .running call.handler number := by
  cases hs : call.status <;> simp_all [Status.isRunning, stage]

namespace Event

def begun? : Event → Option (CallId × HandlerId × Nat)
  | began p i h number _ _ => some (⟨p, i⟩, h, number)
  | _ => none

def returned? : Event → Option CallId
  | returned p i _ _ => some ⟨p, i⟩
  | _ => none

def cut? : Event → Option CallId
  | cut p i _ => some ⟨p, i⟩
  | _ => none

/-- The books are about the beginnings and the ends of calls. -/
def isStroke : Event → Bool
  | began _ _ _ _ _ _ => true
  | returned _ _ _ _ => true
  | cut _ _ _ => true
  | _ => false

end Event

structure Books where
  /-- The beginnings and the ends of calls, the latest first. -/
  strokes : List Event
  tally : Tally
  begunOf : HandlerId → Nat

/-- Writes down that a call began or is over. -/
def Books.enter (books : Books) (event : Event) : Books where
  strokes := event :: books.strokes
  tally :=
    match event with
    | .began _ _ _ _ _ _ => books.tally.began
    | .returned _ _ _ _ => books.tally.returnedOne
    | .cut _ _ _ => books.tally.cutOne
    | _ => books.tally
  begunOf :=
    match event with
    | .began _ _ h _ _ _ => Function.update books.begunOf h (books.begunOf h + 1)
    | _ => books.begunOf

namespace Pass

/-- How far the call at a position has come; one that is not there yet may still be waited for. -/
def stageAt (pass : Pass) (i : Nat) : Stage :=
  match pass.calls[i]? with
  | some call => call.stage
  | none => .waiting

theorem stageAt_of_mem {pass : Pass} {i : Nat} {call : Call}
    (at_position : pass.calls[i]? = some call) : pass.stageAt i = call.stage := by
  simp [stageAt, at_position]

theorem stageAt_of_waiting {pass : Pass} (waiting : ∀ call ∈ pass.calls, call.stage = .waiting) :
    pass.stageAt = fun _ => .waiting := by
  funext i
  cases hc : pass.calls[i]? with
  | none => simp [stageAt, hc]
  | some call => exact (stageAt_of_mem hc).trans (waiting call (List.mem_of_getElem? hc))

theorem stageAt_setCall {pass : Pass} {i : Nat} {call : Call}
    (at_position : pass.calls[i]? = some call) (status : Status) :
    (pass.setCall i status).stageAt =
      Function.update pass.stageAt i { call with status }.stage := by
  funext j
  by_cases hij : i = j
  · subst hij
    simp [stageAt, getElem?_setCall, at_position]
  · simp [stageAt, getElem?_setCall, hij, Function.update_of_ne (Ne.symm hij)]

theorem stageAt_setCall_same {pass : Pass} {i : Nat} {call : Call}
    (at_position : pass.calls[i]? = some call) {status : Status}
    (same : { call with status }.stage = call.stage) :
    (pass.setCall i status).stageAt = pass.stageAt := by
  rw [stageAt_setCall at_position, same, ← stageAt_of_mem at_position]
  exact Function.update_eq_self i _

/-- A permit that comes back makes no call begin. -/
theorem stageAt_returnPermit {pass : Pass} (sound : pass.Sound) (running : pass.phase = .running) :
    pass.returnPermit.stageAt = pass.stageAt := by
  match hp : pass.permits with
  | none => rw [returnPermit_of_none hp]
  | some ⟨free, []⟩ => rw [returnPermit_of_nil hp]; rfl
  | some ⟨free, next :: others⟩ =>
    obtain ⟨call, hc, queued⟩ := (sound.queue running _ hp).queued next List.mem_cons_self
    rw [returnPermit_of_cons hp]
    refine (stageAt_setCall_same hc ?_).trans rfl
    simp [Call.stage, queued]

theorem stageAt_retire {pass : Pass} (sound : pass.Sound) (running : pass.phase = .running)
    {i : Nat} {call : Call} (at_position : pass.calls[i]? = some call)
    (begun : call.status.isRunning = true) (error : Option CallError) :
    (pass.retire i error).stageAt = Function.update pass.stageAt i .done := by
  unfold retire
  rw [stageAt_returnPermit (sound.finish running at_position begun error) running,
    stageAt_setCall at_position]
  rfl

end Pass

namespace World

def stageOf (w : World) (call : CallId) : Stage :=
  match w.passes[call.pass]? with
  | some pass => pass.stageAt call.position
  | none => .waiting

theorem stageOf_of_passes {w w' : World} (passes : w'.passes = w.passes) :
    w'.stageOf = w.stageOf := by
  funext call
  unfold stageOf
  rw [passes]

theorem stageOf_of_none {w : World} {call : CallId}
    (absent : w.call? call.pass call.position = none) : w.stageOf call = .waiting := by
  unfold call? at absent
  unfold stageOf
  cases hp : w.passes[call.pass]? with
  | none => rfl
  | some pass => simp_all [Pass.stageAt]

theorem stageOf_of_call? {w : World} {p : PassId} {i : Nat} {call : Call}
    (found : w.call? p i = some call) : w.stageOf ⟨p, i⟩ = call.stage := by
  obtain ⟨pass, here, at_position⟩ := exists_of_call? found
  unfold stageOf
  rw [here]
  exact Pass.stageAt_of_mem at_position

section
variable {w w' : World} {p : PassId} {pass pass' : Pass} (found : w.passes[p]? = some pass)
  (passes : w'.passes = w.passes.set p pass')
include found passes

theorem stageOf_kept (same : pass'.stageAt = pass.stageAt) : w'.stageOf = w.stageOf := by
  funext call
  unfold stageOf
  rw [passes]
  by_cases hp : p = call.pass
  · subst hp
    rw [getElem?_set_of_some _ found, found]
    exact congrFun same _
  · rw [List.getElem?_set_ne hp]

theorem stageOf_moved {i : Nat} {stage : Stage}
    (moved : pass'.stageAt = Function.update pass.stageAt i stage) :
    w'.stageOf = Function.update w.stageOf ⟨p, i⟩ stage := by
  funext ⟨q, j⟩
  by_cases hq : q = p
  · subst hq
    have here : w'.stageOf ⟨q, j⟩ = pass'.stageAt j := by
      simp [stageOf, passes, (List.getElem?_eq_some_iff.mp found).1]
    by_cases hj : j = i
    · subst hj
      rw [here, moved, Function.update_self, Function.update_self]
    · rw [here, moved, Function.update_of_ne hj, Function.update_of_ne (by simpa using hj)]
      simp [stageOf, found]
  · rw [Function.update_of_ne (by simp [hq])]
    simp [stageOf, passes, List.getElem?_set_ne (Ne.symm hq)]

end

def books (w : World) : Books where
  strokes := w.history.filter Event.isStroke
  tally := w.tally
  begunOf h := match w.handlers.find? h with
    | some handler => handler.begun
    | none => 0

theorem begunOf_of_find? {w : World} {h : HandlerId} {handler : Handler}
    (found : w.handlers.find? h = some handler) : w.books.begunOf h = handler.begun := by
  simp [books, found]

theorem books_record (w : World) {event : Event} (other : event.isStroke = false) :
    (w.record event).books = w.books := by
  simp [books, record, other]

theorem books_modifyHandler (w : World) (h : HandlerId) {f : Handler → Handler}
    (same : ∀ handler, (f handler).begun = handler.begun) :
    (w.modifyHandler h f).books = w.books := by
  unfold books modifyHandler
  congr 1
  funext other
  simp only [Roster.find?_modify]
  by_cases hh : h = other
  · cases hf : w.handlers.find? other with
    | none => simp [hh]
    | some handler => simpa [hh] using same handler
  · simp [hh]

theorem books_retain (w : World) (h : HandlerId) : (w.retain h).books = w.books :=
  books_modifyHandler w h fun _ => rfl

theorem books_release (w : World) (h : HandlerId) : (w.release h).books = w.books := by
  have let_go : (w.letGo h).books = w.books := books_modifyHandler w h fun _ => rfl
  unfold release
  split
  · exact (books_record _ rfl).trans let_go
  · exact let_go

theorem books_retainAll (w : World) (hs : List HandlerId) : (w.retainAll hs).books = w.books := by
  induction hs generalizing w with
  | nil => rfl
  | cons h hs ih => exact (ih (w.retain h)).trans (books_retain w h)

theorem books_releaseAll (w : World) (hs : List HandlerId) :
    (w.releaseAll hs).books = w.books := by
  induction hs generalizing w with
  | nil => rfl
  | cons h hs ih => exact (ih (w.release h)).trans (books_release w h)

theorem books_wake (w : World) (call : CallId) : (w.wake call).books = w.books := by
  obtain ⟨waking, h⟩ := wake_eq w call
  rw [h]
  rfl

theorem books_returnPermit (w : World) (p : PassId) : (w.returnPermit p).books = w.books := by
  unfold returnPermit
  split
  · split
    · exact books_wake ..
    · rfl
  · rfl

theorem books_retire (w : World) (p : PassId) (i : Nat) (h : HandlerId)
    (error : Option CallError) : (w.retire p i h error).books = w.books :=
  (books_returnPermit ..).trans (books_release (w.setStatus p i (.finished error)) h)

theorem books_close (w : World) (p : PassId) (ending : Ending) :
    (w.close p ending).books = w.books := by
  unfold close
  split
  · exact books_record (w.modifyPass p _) rfl
  · rfl

theorem books_dropGuard (w : World) (guard : Guard) : (w.dropGuard guard).books = w.books := by
  obtain ⟨_ | d, key, generation⟩ := guard
  · rfl
  · unfold dropGuard releaseGuard
    dsimp only
    split
    · exact books_record (w.setRegistry d _) rfl
    · exact books_record w rfl

theorem books_survey (w : World) (p : PassId) (d : DispatcherId) :
    (w.survey p d).books = w.books := by
  have swept : ∀ (v : World) (dead : Nat), (v.sweep p d dead).books = v.books := by
    intro v dead
    unfold sweep
    split
    · rfl
    · exact books_record (v.setRegistry d _) rfl
  exact (books_record _ rfl).trans ((swept _ _).trans (books_retainAll w _))

theorem books_setCalls (w : World) (p : PassId) (calls : List Call) (permits : Option Permits)
    (due : List Nat) : ((w.setCalls p calls permits).makeDue p due).books = w.books := rfl

theorem Deed.books {w w' : World} (deed : Deed w w') : w'.books = w.books := by
  cases deed with
  | quiet tokens cancelled openGates arrivals waking => rfl
  | createDispatcher settings vacant => rfl
  | dropDispatcher name => rfl
  | @createHandler h blueprint wish vacant =>
    unfold World.books World.createHandler
    congr 1
    funext other
    simp only [Roster.find?_put]
    by_cases hh : h = other
    · subst hh
      simp [vacant, Handler.ofBlueprint]
    · simp [hh]
  | @clone h handler found owned =>
    exact (books_retain _ h).trans (books_modifyHandler w h fun _ => rfl)
  | @drop h handler found owned =>
    exact (books_release _ h).trans (books_modifyHandler w h fun _ => rfl)
  | forget h => exact books_modifyHandler w h fun _ => rfl
  | rename h name => exact books_modifyHandler w h fun _ => rfl
  | unregisterEmpty d => rw [setRegistry_remove_nowhere]; rfl
  | dropGuard found => exact books_dropGuard w _
  | arrange perm => rfl
  | _ => exact books_record _ rfl

/-- One small change, as far as calls begin or are over. -/
inductive Entry (w w' : World) : Prop
  | still (books : w'.books = w.books) (stages : w'.stageOf = w.stageOf)
  /-- The call gets the next number of its handler. -/
  | begin {call : CallId} (h : HandlerId) (occasion : Occasion) (cancelled : Bool)
      (waiting : w.stageOf call = .waiting)
      (books : w'.books = w.books.enter
        (.began call.pass call.position h (w.books.begunOf h) occasion cancelled))
      (stages : w'.stageOf =
        Function.update w.stageOf call (.running h (w.books.begunOf h)))
  | finish {call : CallId} {h : HandlerId} {number : Nat} {event : Event}
      (running : w.stageOf call = .running h number)
      (ended : event.returned? = some call ∨ event.cut? = some call)
      (books : w'.books = w.books.enter event)
      (stages : w'.stageOf = Function.update w.stageOf call .done)
  /-- The call is given up before it began. -/
  | giveUp {call : CallId} (waiting : w.stageOf call = .waiting) (books : w'.books = w.books)
      (stages : w'.stageOf = Function.update w.stageOf call .done)

abbrev Entries : World → World → Prop := Relation.ReflTransGen Entry

theorem Deed.entry {w w' : World} (deed : Deed w w') : w.Entry w' :=
  .still deed.books (stageOf_of_passes deed.passes)

theorem Admits.books {w admitted : World} {p : PassId} {pass : Pass} {call : Call}
    (admits : w.Admits p pass call admitted) : admitted.books = w.books := by
  cases admits <;> rfl

theorem Admits.stage {w admitted : World} {p : PassId} {pass : Pass} {call : Call}
    (admits : w.Admits p pass call admitted) : call.stage = .waiting := by
  cases admits <;> simp_all [Call.stage]

theorem books_countCall {w : World} {h : HandlerId} {handler : Handler}
    (there : w.handlers.find? h = some handler) (p : PassId) (i : Nat) (occasion : Occasion)
    (cancelled : Bool) (f : Pass → Pass) :
    (((w.countCall h).modifyPass p f).record
      (.began p i h handler.begun occasion cancelled)).books =
        w.books.enter (.began p i h (w.books.begunOf h) occasion cancelled) := by
  have counted : ∀ other, ((w.countCall h).books.begunOf other) =
      Function.update w.books.begunOf h (w.books.begunOf h + 1) other := by
    intro other
    by_cases same : other = h
    · subst same
      simp [World.books, countCall, modifyHandler, setTally, Roster.find?_modify, there]
    · rw [Function.update_of_ne same]
      simp [World.books, countCall, modifyHandler, setTally, Roster.find?_modify, Ne.symm same]
  rw [begunOf_of_find? there]
  unfold Books.enter
  have begunOf := funext counted
  rw [begunOf_of_find? there] at begunOf
  simp only
  rw [begunOf_of_find? there, ← begunOf]
  rfl

theorem entry_begin {w admitted : World} (reached : w.Reached) {p : PassId} {i : Nat} {pass : Pass}
    {call : Call} (call_of : w.IsCall p i pass call) (admits : w.Admits p pass call admitted) :
    w.Entry (admitted.beginCall p i pass call) := by
  obtain ⟨handler, there⟩ := reached.handler_there call_of admits.unfinished
  have same : admitted.handlers.find? call.handler = some handler := admits.handlers ▸ there
  obtain ⟨permits, -, -, passes⟩ := admits.pass call_of.found
  have here : admitted.passes[p]? = some { pass with permits } :=
    passes ▸ getElem?_set_of_some _ call_of.found
  have kept : admitted.stageOf = w.stageOf := stageOf_kept call_of.found passes rfl
  have before : w.stageOf ⟨p, i⟩ = .waiting :=
    (stageOf_of_call? (by simpa [call?, call_of.found] using call_of.at_position)).trans
      admits.stage
  have number : w.books.begunOf call.handler = handler.begun := begunOf_of_find? there
  refine .begin call.handler pass.occasion (admitted.isCancelled pass.token) before ?_ ?_
  · unfold beginCall
    rw [same, ← admits.books]
    exact books_countCall same p i _ _ _
  · unfold beginCall
    rw [same, ← kept, number]
    refine stageOf_moved here
      (passes_setStatus (w := admitted.countCall call.handler) here i _) ?_
    exact @Pass.stageAt_setCall { pass with permits } _ _ call_of.at_position _

theorem entry_retire {w v : World} {p : PassId} {i : Nat} {pass : Pass} {call : Call}
    (sound : pass.Sound) (call_of : w.IsCall p i pass call) (begun : call.status.isRunning = true)
    {event : Event} (ended : event.returned? = some ⟨p, i⟩ ∨ event.cut? = some ⟨p, i⟩)
    (passes : v.passes = w.passes) (books : v.books = w.books.enter event)
    (error : Option CallError) : w.Entry (v.retire p i call.handler error) := by
  obtain ⟨number, stage⟩ := Call.stage_of_isRunning begun
  have running : w.stageOf ⟨p, i⟩ = .running call.handler number :=
    (stageOf_of_call? (by simpa [call?, call_of.found] using call_of.at_position)).trans stage
  have found : v.passes[p]? = some pass := passes ▸ call_of.found
  refine .finish running ended ((books_retire ..).trans books) ?_
  refine stageOf_moved call_of.found ((passes_retire found i call.handler error).trans ?_)
    (Pass.stageAt_retire sound call_of.running call_of.at_position begun error)
  rw [passes]

theorem entry_abandonCall (w : World) (p : PassId) (i : Nat) : w.Entry (w.abandonCall p i) := by
  cases hc : w.call? p i with
  | none =>
    have same : w.abandonCall p i = w := by simp [abandonCall, hc]
    exact .still (by rw [same]) (by rw [same])
  | some call =>
    obtain ⟨pass, found, at_position⟩ := exists_of_call? hc
    have given_up : (w.setStatus p i .abandoned).stageOf = Function.update w.stageOf ⟨p, i⟩ .done :=
      stageOf_moved found (passes_setStatus found i .abandoned)
        (Pass.stageAt_setCall at_position .abandoned)
    have before := stageOf_of_call? hc
    have released : ∀ (v : World), v.passes = w.passes →
        ((v.setStatus p i .abandoned).release call.handler).stageOf =
          Function.update w.stageOf ⟨p, i⟩ .done := fun v same => by
      rw [stageOf_of_passes (passes_release ..), ← given_up]
      exact stageOf_of_passes (by simp [setStatus, modifyPass, same])
    by_cases running : call.status.isRunning = true
    · obtain ⟨number, stage⟩ := Call.stage_of_isRunning running
      have cut : w.abandonCall p i =
          ((w.cutCall p i call.handler).setStatus p i .abandoned).release call.handler := by
        simp [abandonCall, hc, running]
      rw [cut]
      have ended : Event.cut? (.cut p i call.handler) = some ⟨p, i⟩ := rfl
      exact .finish (before.trans stage) (.inr ended) (books_release ..) (released _ rfl)
    · by_cases unfinished : call.status.isUnfinished = true
      · have waiting : call.stage = .waiting := by
          cases hs : call.status <;>
            simp_all [Call.stage, Status.isRunning, Status.isUnfinished]
        have dropped :
            w.abandonCall p i = (w.setStatus p i .abandoned).release call.handler := by
          simp [abandonCall, hc, running, unfinished]
        rw [dropped]
        exact .giveUp (before.trans waiting) (books_release ..) (released w rfl)
      · have same : w.abandonCall p i = w := by simp [abandonCall, hc, running, unfinished]
        exact .still (by rw [same]) (by rw [same])

theorem entries_abandonCalls (w : World) (p : PassId) (pass : Pass) :
    w.Entries (w.abandonCalls p pass) := by
  have all : ∀ (is : List Nat) (v : World),
      v.Entries (is.foldl (fun w i => w.abandonCall p i) v) := by
    intro is
    induction is with
    | nil => exact fun v => .refl
    | cons i is ih => exact fun v => (ih _).head (entry_abandonCall v p i)
  exact all _ w

theorem entry_close {w : World} {p : PassId} {pass : Pass} (found : w.passes[p]? = some pass)
    (ending : Ending) : w.Entry (w.close p ending) :=
  .still (books_close ..) (stageOf_kept found (passes_close found ending) rfl)

theorem Change.entries {w w' : World} (reached : w.Reached) (change : Change w w') :
    w.Entries w' := by
  have recorded := reached.recorded
  cases change with
  | deed deed => exact .single deed.entry
  | @start d named token sender args lineage caller =>
    refine .single (.still rfl (funext fun call => ?_))
    unfold stageOf World.start
    dsimp only
    rcases Nat.lt_trichotomy call.pass w.passes.length with old | new | never
    · rw [List.getElem?_append_left old]
    · rw [new, List.getElem?_concat_length, List.getElem?_eq_none le_rfl]
      rfl
    · rw [List.getElem?_eq_none (by simpa using never), List.getElem?_eq_none never.le]
  | @queue p i pass call permits call_of idle limited short =>
    have first := passes_setPermits call_of.found (permits.enqueue i)
    have here := first ▸ getElem?_set_of_some _ call_of.found
    refine .single (.still rfl (stageOf_kept call_of.found
      ((passes_setStatus here i .queued).trans (by rw [first, List.set_set])) ?_))
    refine (Pass.stageAt_setCall_same call_of.at_position ?_).trans rfl
    simp [Call.stage, idle]
  | begin call_of admits => exact .single (entry_begin reached call_of admits)
  | @proceed p i pass call number before todo call_of begun after rest waits =>
    refine .single (.still rfl (stageOf_kept call_of.found
      (passes_setStatus call_of.found i _) ?_))
    refine Pass.stageAt_setCall_same call_of.at_position ?_
    simp [Call.stage, begun]
  | @returnCall p i pass call call_of begun error =>
    refine .single (entry_retire
      (v := (w.setTally w.tally.returnedOne).record (.returned p i call.handler error))
      (recorded.sound p pass call_of.found) call_of begun ?_ rfl rfl error)
    exact .inl rfl
  | @catchPanic p i pass call call_of begun isolated payload =>
    have ended : Event.cut? (.cut p i call.handler) = some ⟨p, i⟩ := rfl
    refine .single (entry_retire (v := (w.cutCall p i call.handler).record
      (.caught p i pass.dispatcher call.name payload.info))
      (recorded.sound p pass call_of.found) call_of begun (.inr ended) rfl ?_ _)
    exact books_record (w.cutCall p i call.handler) rfl
  | complete found running finished => exact .single (entry_close found _)
  | @giveUp p pass found isOpen ending incomplete unisolated =>
    rw [abandonPass_eq found isOpen]
    exact (entries_abandonCalls w p pass).tail
      (entry_close (passes_abandonCalls found ▸ getElem?_set_of_some _ found) ending)

theorem Progress.entries {w w' : World} (reached : w.Reached) (progress : Progress w w') :
    w.Entries w' := by
  cases progress with
  | change change => exact change.entries reached
  | @opening p pass found fresh =>
    have none_yet := (reached.recorded.sound p pass found).fresh_empty fresh
    have waiting : pass.stageAt = fun _ => .waiting :=
      Pass.stageAt_of_waiting (by simp [none_yet])
    refine .single ?_
    cases read : (w.survey p pass.dispatcher).readNames (w.snapshotOf pass.dispatcher).live with
    | error payload =>
      refine .still ?_ (stageOf_kept found (passes_openPass_error found read) rfl)
      rw [openPass_error read]
      exact (books_close ..).trans ((books_releaseAll ..).trans (books_survey ..))
    | ok names =>
      refine .still ?_ (stageOf_kept found (passes_openPass_ok found read) ?_)
      · rw [openPass_ok read]
        exact (books_setCalls ..).trans (books_survey ..)
      · rw [waiting]
        refine Pass.stageAt_of_waiting fun call hc => ?_
        obtain ⟨i, hi⟩ := List.getElem?_of_mem hc
        obtain ⟨handler, name, -, -, rfl⟩ := List.getElem?_zipWith_eq_some.mp hi
        rfl

end World
end Fanout
