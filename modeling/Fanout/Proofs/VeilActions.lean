import Fanout.Proofs.Veil

/-! What is done in a veiled world: registrations, actions, the life of a call and the steps of its
script. All this is answered as in the world itself, but for what is hidden of the answers, and the
world that comes of it is the veiled one. -/
namespace Fanout
variable {v : Veil}

def Effect.under (v : Veil) : Effect → Effect
  | finish verdict => finish (v.verdict verdict)
  | effect => effect

def Action.isAboutToken : Action → Bool
  | cancel _ => true
  | cancelled _ => true
  | _ => false

def Step.isAboutToken : Step → Bool
  | checkToken => true
  | awaitToken => true
  | cancelToken => true
  | act action _ => action.isAboutToken
  | _ => false

def Step.isAboutOccasion : Step → Bool
  | failWithOccasion => true
  | failBelow _ => true
  | failFor _ => true
  | _ => false

namespace Veil

def ShowsTokens (v : Veil) : Prop := v.cancelled = id

theorem ShowsTokens.flag (shows : v.ShowsTokens) (b : Bool) : v.flag b = b := by
  have contained := v.contains_cancelled (if b then [.own 0] else []) (.own 0)
  rw [shows] at contained
  cases b <;> simpa using contained.symm

structure ShowsEndings (v : Veil) : Prop where
  verdict : v.verdict = id
  returned : v.returned = id
  history_cons : ∀ event earlier, v.history (event :: earlier) = event.under v :: v.history earlier

end Veil

/-- A step that the veil does not hide, and that does not look at what it hides. -/
structure Step.Seen (v : Veil) (step : Step) : Prop where
  same : v.step step = step
  tokens : step.isAboutToken = true → v.ShowsTokens
  occasions : step.isAboutOccasion = true → v.occasion = id
  panics : ∀ payload, step = .panic payload → v.verdict (.panicked payload) = .panicked payload

namespace World
variable (w : World)

theorem under_register (d : DispatcherId) (h : HandlerId) :
    (w.register d h).under v = (w.under v).register d h := by
  unfold register World.insert
  rw [keyOf_under]
  dsimp only
  rw [under_record _ _ (by simp)]
  rfl

theorem registerWeak_under (d : DispatcherId) (handle : Option HandlerId) :
    (w.under v).registerWeak d handle =
      ((w.registerWeak d handle).1.under v, (w.registerWeak d handle).2) := by
  cases handle with
  | none => rfl
  | some h =>
    simp only [registerWeak, alive_under]
    split
    · have registered := w.under_register (v := v) d h
      unfold register at registered
      simp only [registered]
    · rfl

theorem unregister_under (d : DispatcherId) (h : HandlerId) :
    (w.under v).unregister d h = ((w.unregister d h).1.under v, (w.unregister d h).2) := by
  unfold unregister
  rw [keyOf_under]
  dsimp only
  rw [under_record _ _ (by simp)]
  rfl

theorem unregisterWeak_under (d : DispatcherId) (handle : Option HandlerId) :
    (w.under v).unregisterWeak d handle =
      ((w.unregisterWeak d handle).1.under v, (w.unregisterWeak d handle).2) := by
  have key : (w.under v).handleKey handle = w.handleKey handle := by
    cases handle with
    | none => rfl
    | some h => exact w.keyOf_under h
  simp only [unregisterWeak, key, handleAlive_under, registry_under]
  split
  · rfl
  · cases handle with
    | none => rfl
    | some h =>
      dsimp only
      rw [under_record _ _ (by simp)]
      rfl

theorem subscribe_under (d : DispatcherId) (h : HandlerId) :
    (w.under v).subscribe d h = ((w.subscribe d h).1.under v, (w.subscribe d h).2) := by
  unfold subscribe World.insert
  rw [keyOf_under]
  dsimp only
  rw [under_record _ _ (by simp)]
  rfl

theorem releaseGuard_under (guard : Guard) : (w.under v).releaseGuard guard =
    ((w.releaseGuard guard).1.under v, (w.releaseGuard guard).2) := by
  obtain ⟨_ | d, key, generation⟩ := guard
  · rfl
  · simp only [releaseGuard, keeps_under]
    split
    · dsimp only
      rw [under_record _ _ (by simp)]
      rfl
    · rw [under_record _ _ (by simp)]
      rfl

theorem under_dropGuard (guard : Guard) :
    (w.dropGuard guard).under v = (w.under v).dropGuard guard := by
  unfold dropGuard
  rw [releaseGuard_under]

theorem unsubscribe_under (guard : Guard) : (w.under v).unsubscribe guard =
    ((w.unsubscribe guard).1.under v, (w.unsubscribe guard).2) := by
  rw [unsubscribe_eq, unsubscribe_eq, releaseGuard_under, under_dropGuard]

@[simp] theorem under_reorder (d : DispatcherId) (order : List (Key × Registration)) :
    (w.reorder d order).under v = (w.under v).reorder d order := by
  simp only [reorder, registry_under, apply_ite (under v)]
  rfl

theorem purge_under (d : DispatcherId) (pass : Option PassId) :
    (w.under v).purge d pass = ((w.purge d pass).1.under v, (w.purge d pass).2) := by
  have alive : (w.under v).alive = w.alive := funext w.alive_under
  unfold purge
  rw [alive]
  dsimp only
  rw [under_record _ _ (by simp)]
  rfl

theorem handlerCalled_under (name : Option String) :
    (w.under v).handlerCalled name =
      (w.handlerCalled name).map (Prod.map id (Handler.under v)) := by
  cases name with
  | none => rfl
  | some name =>
    simp only [handlerCalled, lookUp, need, bind, Except.bind, find?_handlers_under]
    cases w.handlers.find? name <;> rfl

theorem handlerOwned_under (name : Option String) :
    (w.under v).handlerOwned name = (w.handlerOwned name).map (Prod.map id (Handler.under v)) := by
  unfold handlerOwned
  rw [handlerCalled_under]
  cases w.handlerCalled name with
  | error refusal => rfl
  | ok called =>
    obtain ⟨h, handler⟩ := called
    simp only [Except.map, bind, Except.bind, Prod.map, Handler.under]
    split <;> rfl

theorem handleCalled_under (handle : Option Handle) :
    (w.under v).handleCalled handle = w.handleCalled handle := by
  match handle with
  | none => rfl
  | some .empty => rfl
  | some (.of name) =>
    unfold handleCalled
    dsimp only
    rw [handlerCalled_under]
    cases w.handlerCalled (some name) <;> rfl

theorem vacant_under (name : Option String) :
    vacant (w.under v).handlers name = vacant w.handlers name := by
  cases name with
  | none => rfl
  | some name =>
    have has : (w.under v).handlers.has name = w.handlers.has name := by
      simp only [Roster.has, find?_handlers_under, Option.isSome_map]
    simp only [vacant, need, bind, Except.bind, has]

theorem under_createHandler (h : HandlerId) (blueprint : Nat) (wish : Option Nat) :
    (w.createHandler h blueprint wish).under v = (w.under v).createHandler h blueprint wish := by
  have after : (w.under v).blueprints.getD blueprint {} =
      (w.blueprints.getD blueprint {}).under v := List.getD_map w.blueprints {} (Blueprint.under v)
  unfold createHandler
  rw [addressFor_under, after]
  simp only [under, Roster.map_put]
  rfl

theorem under_cancelToken (shows : v.ShowsTokens) (token : Token) :
    (w.cancelToken token).under v = (w.under v).cancelToken token := by
  by_cases cancelled : w.isCancelled token = true
  · simp [cancelToken, isCancelled_under, shows.flag, cancelled]
  · have added : ({ w with cancelled := token :: w.cancelled } : World).under v =
        { w.under v with cancelled := token :: (w.under v).cancelled } := by
      simp only [under, show v.cancelled = id from shows, id]
    simp [cancelToken, isCancelled_under, shows.flag, cancelled, under_signal, added]

def shownResult (v : Veil) (result : World × Answer) : World × Answer :=
  (result.1.under v, result.2.under v)

theorem attempt_under {action : Action} (shown : action.isAboutToken = true → v.ShowsTokens) :
    (w.under v).attempt action = (w.attempt action).map (shownResult v) := by
  cases action with
  | createDispatcher name source => exact bind_map fun _ => rfl
  | dropDispatcher name => exact bind_map fun _ => rfl
  | createHandler name blueprint wish =>
    simp only [attempt, vacant_under, ← under_createHandler]
    exact bind_map fun _ => rfl
  | clone name =>
    refine map_bind_map (w.handlerOwned_under name) fun called => ok_map ?_
    simp only [shownResult, under_retain]
    rw [under_modifyHandler]
    · rfl
    · exact fun _ => rfl
  | drop name =>
    refine map_bind_map (w.handlerOwned_under name) fun called => ok_map ?_
    simp only [shownResult, under_release]
    rw [under_modifyHandler]
    · rfl
    · exact fun _ => rfl
  | forget name =>
    refine map_bind_map (w.handlerCalled_under name) fun called => ok_map ?_
    simp only [shownResult]
    rw [under_modifyHandler]
    · rfl
    · exact fun _ => rfl
  | alive handle =>
    simp only [attempt, handleCalled_under, handleAlive_under]
    exact bind_map fun _ => rfl
  | handlerName name =>
    refine map_bind_map (w.handlerOwned_under name) fun called => ?_
    have naming : (called.2.under v).naming = called.2.naming := rfl
    simp only [Prod.map, naming]
    cases called.2.naming.read <;> rfl
  | rename name newName =>
    refine map_bind_map (w.handlerCalled_under name) fun called => bind_map fun new => ok_map ?_
    simp only [shownResult]
    rw [under_modifyHandler]
    · rfl
    · exact fun _ => rfl
  | register d name =>
    refine bind_map fun d => map_bind_map (w.handlerOwned_under name) fun called => ok_map ?_
    simp only [shownResult, under_register]
    rfl
  | registerWeak d handle =>
    simp only [attempt, dispatcherCalled_under, handleCalled_under, registerWeak_under]
    refine bind_map fun d => bind_map fun called => ok_map ?_
    simp only [shownResult]
    cases (w.registerWeak d called).2 <;> rfl
  | unregister d name =>
    simp only [attempt, dispatcherCalled_under, unregister_under]
    exact bind_map fun _ => map_bind_map (w.handlerOwned_under name) fun _ => rfl
  | unregisterWeak d handle =>
    simp only [attempt, dispatcherCalled_under, handleCalled_under, unregisterWeak_under]
    refine bind_map fun d => bind_map fun called => ok_map ?_
    simp only [shownResult]
    cases (w.unregisterWeak d called).2 <;> rfl
  | subscribe guardName d name =>
    simp only [attempt, guards_under, dispatcherCalled_under, subscribe_under, isActive_under]
    exact bind_map fun _ => bind_map fun _ => map_bind_map (w.handlerOwned_under name) fun _ => rfl
  | unsubscribe name =>
    simp only [attempt, guards_under, unsubscribe_under]
    exact bind_map fun _ => rfl
  | dropGuard name =>
    simp only [attempt, guards_under, ← under_dropGuard]
    exact bind_map fun _ => rfl
  | guardState name =>
    simp only [attempt, guards_under, guardAnswer, isActive_under]
    exact bind_map fun _ => rfl
  | count name => exact bind_map fun _ => rfl
  | purge name =>
    simp only [attempt, dispatcherCalled_under, purge_under]
    exact bind_map fun _ => rfl
  | describe name => exact bind_map fun _ => rfl
  | createToken name =>
    refine bind_map fun name => ?_
    rw [apply_ite (Except.map _)]
    rfl
  | cancel name =>
    simp only [attempt, tokenCalled_under, ← under_cancelToken _ (shown rfl)]
    exact bind_map fun _ => rfl
  | cancelled name =>
    simp only [attempt, tokenCalled_under, isCancelled_under, (shown rfl).flag]
    exact bind_map fun _ => rfl
  | openGate name =>
    refine bind_map fun gate => ok_map ?_
    simp only [openGate, shownResult, under_signal]
    rfl
  | closeGate name => exact bind_map fun _ => rfl
  | stats => rfl
  | peak => rfl
  | unknown label => rfl
theorem perform_under {action : Action} (shown : action.isAboutToken = true → v.ShowsTokens) :
    (w.under v).perform action = shownResult v (w.perform action) := by
  unfold perform
  rw [attempt_under w shown]
  cases w.attempt action <;> rfl

theorem readNames_under (hs : List HandlerId) : (w.under v).readNames hs = w.readNames hs := by
  induction hs with
  | nil => rfl
  | cons h hs ih =>
    simp only [readNames, find?_handlers_under, ih]
    cases w.handlers.find? h <;> rfl

theorem snapshotOf_under (d : DispatcherId) : (w.under v).snapshotOf d = w.snapshotOf d := by
  have alive : (w.under v).alive = w.alive := funext w.alive_under
  simp only [snapshotOf, registry_under, alive]

@[simp] theorem under_sweep (p : PassId) (d : DispatcherId) (dead : Nat) :
    (w.sweep p d dead).under v = (w.under v).sweep p d dead := by
  unfold sweep
  split
  · rfl
  · rw [purge_under]

@[simp] theorem under_survey (p : PassId) (d : DispatcherId) :
    (w.survey p d).under v = (w.under v).survey p d := by
  unfold survey
  rw [snapshotOf_under, under_record _ _ (by simp), under_sweep, under_retainAll]
  rfl

@[simp] theorem under_makeDue (p : PassId) (positions : List Nat) :
    (w.makeDue p positions).under v = (w.under v).makeDue p positions := rfl

theorem openPass_under (p : PassId) (pass : Pass) :
    (w.under v).openPass p (pass.under v) =
      ((w.openPass p pass).1.under v, (w.openPass p pass).2) := by
  have same : (pass.under v).dispatcher = pass.dispatcher := rfl
  simp only [openPass, same, snapshotOf_under, ← under_survey, readNames_under]
  cases (w.survey p pass.dispatcher).readNames (w.snapshotOf pass.dispatcher).live with
  | error payload => simp only [under_close, under_releaseAll]
  | ok names =>
    simp only [under_makeDue, under_setCalls, settings_under, List.map_zipWith]
    rfl

theorem under_countCall (h : HandlerId) : (w.countCall h).under v = (w.under v).countCall h := by
  have counted : (w.modifyHandler h fun x => { x with begun := x.begun + 1 }).under v =
      (w.under v).modifyHandler h fun x => { x with begun := x.begun + 1 } := by
    apply under_modifyHandler
    intro x
    rfl
  unfold countCall
  rw [← counted]
  rfl

theorem script_under (handler : Handler) (number : Nat) :
    (handler.under v).script number = (handler.script number).map (Step.under v) := by
  simp only [Handler.script, Handler.under, List.length_map]
  exact List.getD_map handler.scripts [] _

@[simp] theorem under_beginCall (p : PassId) (i : Nat) (pass : Pass) (call : Call) :
    (w.beginCall p i pass call).under v =
      (w.under v).beginCall p i (pass.under v) (call.under v) := by
  have same : (call.under v).handler = call.handler := rfl
  simp only [beginCall, same, find?_handlers_under]
  cases w.handlers.find? call.handler with
  | none => rfl
  | some handler =>
    have shown : (w.under v).isCancelled (pass.under v).token =
        v.flag (w.isCancelled pass.token) := w.isCancelled_under pass.token
    simp only [Option.map_some, script_under, shown]
    rw [under_record _ _ (by simp), under_setStatus, under_countCall]
    rfl

@[simp] theorem under_returnPermit (p : PassId) :
    (w.returnPermit p).under v = (w.under v).returnPermit p := by
  simp only [returnPermit, getElem?_passes_under]
  rcases w.passes[p]? with _ | ⟨_, _, _, _, _, _, _ | ⟨free, _ | ⟨next, others⟩⟩⟩
  · rfl
  · rfl
  · simp only [Option.map_some, Pass.under, Permits.giveBack, under_setPermits]
  · simp only [Option.map_some, Pass.under, Permits.giveBack, under_wake, under_setStatus,
      under_setPermits]
    rfl

@[simp] theorem under_retire (p : PassId) (i : Nat) (h : HandlerId) (error : Option CallError) :
    (w.retire p i h error).under v = (w.under v).retire p i h error := by
  simp only [retire, under_returnPermit, under_release, under_setStatus]
  rfl

theorem under_returnCall (endings : v.ShowsEndings) (p : PassId) (i : Nat) (h : HandlerId)
    (error : Option CallError) :
    (w.returnCall p i h error).under v = (w.under v).returnCall p i h error := by
  have counted : (w.setTally w.tally.returnedOne).under v =
      (w.under v).setTally (w.under v).tally.returnedOne := by
    simp only [setTally, under, Tally.under, endings.returned, id]
  unfold returnCall
  rw [under_retire, under_record _ _ (by simp), counted]
  rfl

theorem under_catchPanic (endings : v.ShowsEndings) (p : PassId) (i : Nat) (d : DispatcherId)
    (call : Call) (payload : Payload) : (w.catchPanic p i d call payload).under v =
      (w.under v).catchPanic p i d (call.under v) payload := by
  have told : ∀ (u : World) (event : Event), (u.record event).under v =
      (u.under v).record (event.under v) := by
    intro u event
    simp only [record, under, endings.history_cons]
  unfold catchPanic
  rw [under_retire, told, under_cutCall]
  rfl

theorem summon_under (caller : Option (CallId × Pass)) (summons : Summons) :
    (w.under v).summon (caller.map (Prod.map id (Pass.under v))) summons =
      (w.summon caller summons).map (Prod.map id (under v)) := by
  simp only [summon, dispatcherCalled_under, tokenCalled_under, start_under]
  cases w.dispatcherCalled summons.dispatcher with
  | error refusal => rfl
  | ok d =>
    match summons.token, caller with
    | none, _ => rfl
    | some .fresh, none => rfl
    | some .fresh, some called => rfl
    | some .callers, none => rfl
    | some .callers, some called => rfl
    | some (.named name), none =>
      dsimp only [bind, Except.bind]
      cases w.tokenCalled (some name) <;> rfl
    | some (.named name), some called =>
      dsimp only [bind, Except.bind]
      cases w.tokenCalled (some name) <;> rfl

theorem isMet_under (token : Token) {await : Await}
    (shown : await = .cancellation → v.ShowsTokens) :
    (w.under v).isMet token await = w.isMet token await := by
  cases await with
  | cancellation => exact (w.isCancelled_under token).trans ((shown rfl).flag _)
  | _ => rfl

theorem under_await (call : CallId) (token : Token) (await : Await) :
    (w.await call token await).under v = (w.under v).await call token await := by
  unfold World.await
  split <;> rfl

theorem under_arriveAt (gate : String) : (w.arriveAt gate).under v = (w.under v).arriveAt gate :=
  under_signal _ _

theorem under_tell (p : PassId) (i : Nat) (h : HandlerId) (note : Note) :
    (w.tell p i h note).under v = (w.under v).tell p i h (note.under v) :=
  w.under_record _ (by simp)

def shownStep (v : Veil) (taken : World × Effect) : World × Effect :=
  (taken.1.under v, taken.2.under v)

theorem shownStep_tell (p : PassId) (i : Nat) (h : HandlerId) (note : Note) :
    shownStep v (w.tell p i h note, .goOn .ready) =
      ((w.under v).tell p i h (note.under v), .goOn .ready) :=
  congrArg (·, _) (w.under_tell p i h note)

theorem afterAction_under (p : PassId) (i : Nat) (h : HandlerId) (action : Action)
    (propagate : Bool) (result : World × Answer) :
    afterAction p i h action propagate (shownResult v result) =
      shownStep v (afterAction p i h action propagate result) := by
  obtain ⟨after, answer⟩ := result
  have told := after.shownStep_tell (v := v) p i h (.did action.label answer)
  cases answer with
  | failed error =>
    cases propagate with
    | true => exact congrArg (_, Effect.finish ·) (v.verdict_returned _).symm
    | false => exact told.symm
  | _ => exact told.symm

theorem take_under (p : PassId) (i : Nat) (pass : Pass) (h : HandlerId) {step : Step}
    (seen : step.Seen v) :
    (w.under v).take p i (pass.under v) h step = shownStep v (w.take p i pass h step) := by
  have finishes : ∀ error, shownStep v (w, .finish (.returned error)) =
      (w.under v, .finish (.returned error)) :=
    fun error => congrArg (_, Effect.finish ·) (v.verdict_returned error)
  cases step with
  | say text => exact (w.shownStep_tell p i h (.said text)).symm
  | finish => exact (finishes none).symm
  | linger times => cases times <;> rfl
  | arrive gate expected => exact congrArg (·, _) (w.under_arriveAt gate).symm
  | fail error => exact (finishes error).symm
  | failWithOccasion =>
    simp only [take, Pass.under, seen.occasions rfl, id, finishes]
  | failBelow bound =>
    simp only [take, Pass.under, seen.occasions rfl, id]
    split
    · exact (finishes _).symm
    · rfl
  | failFor sender =>
    simp only [take, Pass.under, seen.occasions rfl, id]
    split
    · exact (finishes _).symm
    · rfl
  | panic payload => exact congrArg (_, Effect.finish ·) (seen.panics payload rfl).symm
  | checkToken =>
    have same : (w.under v).isCancelled (pass.under v).token = w.isCancelled pass.token :=
      (w.isCancelled_under pass.token).trans ((seen.tokens rfl).flag _)
    simp only [take, same]
    split
    · exact (finishes _).symm
    · rfl
  | cancelToken => exact congrArg (·, _) (w.under_cancelToken (seen.tokens rfl) pass.token).symm
  | showToken =>
    have told := w.shownStep_tell (v := v) p i h (.token (w.isCancelled pass.token))
    simp only [take, told, isCancelled_under]
    rfl
  | raise summons propagate =>
    have summoned := w.summon_under (v := v) (some (⟨p, i⟩, pass)) summons
    simp only [Option.map_some, Prod.map, id] at summoned
    simp only [take, summoned]
    cases w.summon (some (⟨p, i⟩, pass)) summons with
    | ok started => rfl
    | error refusal => exact (w.shownStep_tell p i h (.did "invoke" (.refused refusal))).symm
  | act action propagate =>
    simp only [take, w.perform_under seen.tokens]
    exact afterAction_under p i h action propagate _
  | _ => rfl

end World
end Fanout
