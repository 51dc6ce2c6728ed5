import Fanout.Proofs.Lineage

/-! What happens to the registries. A registry changes only by what is done to it at once, and in
the first poll of a pass, and all of that is in the history. Everything else that happens in a
world leaves the registries, the guards and the dispatchers' names as they are, and moves no
handler. -/
namespace Fanout

/-- The events that tell what happened to the registry of the dispatcher. -/
def Event.touches (d : DispatcherId) : Event → Bool
  | registered e _ _ => e = d
  | subscribed e _ _ => e = d
  | unregistered e _ _ => e = d
  | released e _ _ _ => e = d
  | purged e _ _ => e = d
  | opened _ e _ _ => e = d
  | _ => false

namespace World

/-- The handler is where it was, and nobody has got a weak handle to it. -/
def InPlace (old new : Option Handler) : Prop :=
  Option.Rel (fun old new => new.address = old.address ∧ (new.watched = true → old.watched = true))
    old new

/-- Something happened that did not concern any registry. -/
structure Aside (w w' : World) : Prop where
  dispatchers : w'.dispatchers = w.dispatchers
  names : w'.names = w.names
  guards : w'.guards = w.guards
  handlers : ∀ h, InPlace (w.handlers.find? h) (w'.handlers.find? h)
  history : ∃ events, w'.history = events ++ w.history ∧
    ∀ d, ∀ e ∈ events, Event.touches d e = false

theorem InPlace.refl (handler : Option Handler) : InPlace handler handler := by
  cases handler with
  | none => exact .none
  | some handler => exact .some ⟨rfl, id⟩

theorem InPlace.trans {a b c : Option Handler} (h : InPlace a b) (h' : InPlace b c) :
    InPlace a c := by
  cases h with
  | none => exact h'
  | some ab =>
    cases h' with
    | some bc => exact .some ⟨bc.1.trans ab.1, ab.2 ∘ bc.2⟩

namespace Aside

theorem refl (w : World) : Aside w w :=
  ⟨rfl, rfl, rfl, fun _ => .refl _, [], rfl, by simp⟩

theorem trans {a b c : World} (h : Aside a b) (h' : Aside b c) : Aside a c := by
  obtain ⟨events, later, quiet⟩ := h.history
  obtain ⟨events', later', quiet'⟩ := h'.history
  refine ⟨h'.dispatchers.trans h.dispatchers, h'.names.trans h.names, h'.guards.trans h.guards,
    fun x => (h.handlers x).trans (h'.handlers x), events' ++ events, ?_, ?_⟩
  · rw [later', later, List.append_assoc]
  · intro d e he
    rcases List.mem_append.mp he with he | he
    · exact quiet' d e he
    · exact quiet d e he

theorem of_eq {w w' : World} (dispatchers : w'.dispatchers = w.dispatchers)
    (names : w'.names = w.names) (guards : w'.guards = w.guards)
    (handlers : w'.handlers = w.handlers) (history : w'.history = w.history) : Aside w w' :=
  ⟨dispatchers, names, guards, fun h => handlers ▸ .refl _, [], history, by simp⟩

theorem record (w : World) {event : Event} (quiet : ∀ d, event.touches d = false) :
    Aside w (w.record event) :=
  ⟨rfl, rfl, rfl, fun _ => .refl _, [event], rfl, by simpa using quiet⟩

theorem modifyHandler (w : World) (h : HandlerId) (f : Handler → Handler)
    (place : ∀ x, (f x).address = x.address)
    (watched : ∀ x, (f x).watched = true → x.watched = true) : Aside w (w.modifyHandler h f) := by
  refine ⟨rfl, rfl, rfl, fun h' => ?_, [], rfl, by simp⟩
  simp only [World.modifyHandler, Roster.find?_modify]
  split
  · cases w.handlers.find? h' with
    | none => exact .none
    | some handler => exact .some ⟨place handler, watched handler⟩
  · exact .refl _

theorem retain (w : World) (h : HandlerId) : Aside w (w.retain h) :=
  modifyHandler w h _ (fun _ => rfl) fun _ => id

theorem release (w : World) (h : HandlerId) : Aside w (w.release h) := by
  have let_go : Aside w (w.letGo h) := modifyHandler w h _ (fun _ => rfl) fun _ => id
  unfold World.release
  split
  · exact let_go.trans (record _ fun _ => rfl)
  · exact let_go

theorem retainAll (w : World) (hs : List HandlerId) : Aside w (w.retainAll hs) := by
  induction hs generalizing w with
  | nil => exact .refl w
  | cons h hs ih => exact (retain w h).trans (ih _)

theorem releaseAll (w : World) (hs : List HandlerId) : Aside w (w.releaseAll hs) := by
  induction hs generalizing w with
  | nil => exact .refl w
  | cons h hs ih => exact (release w h).trans (ih _)

theorem modifyPass (w : World) (p : PassId) (f : Pass → Pass) : Aside w (w.modifyPass p f) :=
  .of_eq rfl rfl rfl rfl rfl

theorem setStatus (w : World) (p : PassId) (i : Nat) (status : Status) :
    Aside w (w.setStatus p i status) := modifyPass w p _

theorem wake (w : World) (call : CallId) : Aside w (w.wake call) := by
  obtain ⟨waking, h⟩ := wake_eq w call
  exact h ▸ .of_eq rfl rfl rfl rfl rfl

theorem returnPermit (w : World) (p : PassId) : Aside w (w.returnPermit p) := by
  unfold World.returnPermit
  split
  · split
    · refine trans ?_ (wake _ _)
      exact (modifyPass w p _).trans (setStatus _ p _ _)
    · exact modifyPass w p _
  · exact .refl w

theorem retire (w : World) (p : PassId) (i : Nat) (h : HandlerId) (error : Option CallError) :
    Aside w (w.retire p i h error) :=
  ((setStatus w p i _).trans (release _ h)).trans (returnPermit _ p)

theorem close (w : World) (p : PassId) (ending : Ending) : Aside w (w.close p ending) := by
  unfold World.close
  split
  · exact trans (modifyPass w p _) (record _ fun _ => rfl)
  · exact .refl w

theorem cutCall (w : World) (p : PassId) (i : Nat) (h : HandlerId) : Aside w (w.cutCall p i h) :=
  trans (b := w.setTally w.tally.cutOne) (.of_eq rfl rfl rfl rfl rfl) (record _ fun _ => rfl)

theorem abandonCall (w : World) (p : PassId) (i : Nat) : Aside w (w.abandonCall p i) := by
  unfold World.abandonCall
  split
  · rename_i call _
    split
    · exact ((cutCall w p i _).trans (setStatus _ p i _)).trans (release _ _)
    · split
      · exact (setStatus w p i _).trans (release _ _)
      · exact .refl w
  · exact .refl w

theorem abandonPass (w : World) (p : PassId) (ending : Ending) :
    Aside w (w.abandonPass p ending) := by
  have all : ∀ (is : List Nat) (v : World),
      Aside v (is.foldl (fun w i => w.abandonCall p i) v) := by
    intro is
    induction is with
    | nil => exact fun v => .refl v
    | cons i is ih => exact fun v => (abandonCall v p i).trans (ih _)
  unfold World.abandonPass
  split
  · split
    · exact (all _ w).trans (close _ p ending)
    · exact .refl w
  · exact .refl w

theorem abandon (w : World) (p : PassId) (ending : Ending) :
    Aside w (w.abandon p ending) := by
  have all : ∀ (qs : List PassId) (v : World),
      Aside v (qs.foldl (fun w q => w.abandonPass q .dropped) v) := by
    intro qs
    induction qs with
    | nil => exact fun v => .refl v
    | cons q qs ih => exact fun v => (abandonPass v q .dropped).trans (ih _)
  exact (all _ w).trans (abandonPass _ p ending)

theorem returnCall (w : World) (p : PassId) (i : Nat) (h : HandlerId)
    (error : Option CallError) : Aside w (w.returnCall p i h error) := by
  have returned : Aside w ((w.setTally w.tally.returnedOne).record (.returned p i h error)) :=
    .trans (b := w.setTally w.tally.returnedOne) (.of_eq rfl rfl rfl rfl rfl)
      (.record _ fun _ => rfl)
  exact returned.trans (.retire _ p i h error)

theorem catchPanic (w : World) (p : PassId) (i : Nat) (d : DispatcherId) (call : Call)
    (payload : Payload) : Aside w (w.catchPanic p i d call payload) := by
  have caught : Aside w ((w.cutCall p i call.handler).record
      (.caught p i d call.name payload.info)) :=
    (cutCall w _ _ _).trans (.record _ fun _ => rfl)
  exact caught.trans (.retire _ p i _ _)

end Aside

/-- What a registry becomes when something is done to it, with what is told of it. -/
inductive TableTurn (w : World) (d : DispatcherId) : List Event → Registry → Prop
  | insert {h : HandlerId} {handler : Handler} {event : Event} (named : w.Named d)
      (found : w.handlers.find? h = some handler)
      (held : handler.owned ≠ 0 ∨ handler.alive = true ∧ handler.watched = true)
      (told : event = .registered d h ((w.registry d).counter + 1) ∨
        event = .subscribed d h ((w.registry d).counter + 1)) :
      TableTurn w d [event] ((w.registry d).insert (w.keyOf h) h).2
  | remove {h : HandlerId} {handler : Handler} (named : w.Named d)
      (found : w.handlers.find? h = some handler)
      (held : handler.owned ≠ 0 ∨ handler.watched = true) :
      TableTurn w d [.unregistered d h ((w.registry d).remove (w.keyOf h)).1]
        ((w.registry d).remove (w.keyOf h)).2
  | release {name : String} {guard : Guard} (found : w.guards.find? name = some guard)
      (dispatcher : guard.dispatcher = some d) (kept : w.keeps d = true) :
      TableTurn w d
        [.released d guard.key guard.generation
          ((w.registry d).removeGeneration guard.key guard.generation).1]
        ((w.registry d).removeGeneration guard.key guard.generation).2
  | purge (named : w.Named d) :
      TableTurn w d [.purged d none ((w.registry d).purge w.alive).1]
        ((w.registry d).purge w.alive).2
  | removeNowhere : TableTurn w d [] ((w.registry d).remove .nowhere).2
  /-- A guard lets go of what is no longer kept. -/
  | tooLate (gone : w.keeps d = false) (key : Key) (generation : UInt64) :
      TableTurn w d [.released d key generation false] (w.registry d)
  | nothing : TableTurn w d [] (w.registry d)
  /-- A pass is opened, and sweeps the registry if there are dead entries. -/
  | sweep {p : PassId} {pass : Pass} (found : w.passes[p]? = some pass)
      (fresh : pass.phase = .fresh) (belongs : pass.dispatcher = d) {events : List Event}
      (swept : events = [] ∧ (w.snapshotOf d).dead = 0 ∨
        ∃ count, events = [.purged d (some p) count]) :
      TableTurn w d (.opened p d (w.snapshotOf d).live (w.snapshotOf d).dead :: events)
        ((w.registry d).purge w.alive).2
  | arrange {order : List (Key × Registration)}
      (perm : order.Perm (w.registry d).entries.entries) :
      TableTurn w d [] { w.registry d with entries := ⟨order⟩ }

inductive GuardTurn (w : World) : List Event → Roster String Guard → Prop
  | same (events : List Event) : GuardTurn w events w.guards
  | given (name : String) (d : DispatcherId) (h : HandlerId) (generation : UInt64) :
      GuardTurn w [.subscribed d h generation]
        (w.guards.put name ⟨some d, w.keyOf h, generation⟩)
  | dropped (events : List Event) (name : String) : GuardTurn w events (w.guards.erase name)

def write (w : World) (d : DispatcherId) (events : List Event) (registry : Registry)
    (guards : Roster String Guard) : World :=
  { w.setRegistry d registry with guards, history := events ++ w.history }

inductive TableStep (w w' : World) : Prop
  | aside (aside : Aside w w')
  | turned {d : DispatcherId} {events : List Event} {registry : Registry}
      {guards : Roster String Guard} (turn : TableTurn w d events registry)
      (guard_turn : GuardTurn w events guards) (aside : Aside (w.write d events registry guards) w')
  | createdDispatcher {name : String} (settings : Settings) (vacant : w.names.find? name = none)
      (after : w' = { w with
        dispatchers := w.dispatchers ++ [{ settings }],
        names := w.names.put name w.dispatchers.length })
  | droppedDispatcher (name : String) (after : w' = { w with names := w.names.erase name })
  | createdHandler {h : HandlerId} (blueprint : Nat) (wish : Option Nat)
      (vacant : w.handlers.find? h = none) (after : w' = w.createHandler h blueprint wish)

theorem TableTurn.step {w w' : World} {d : DispatcherId} {events : List Event}
    {registry : Registry} (turn : TableTurn w d events registry)
    (after : w' = w.write d events registry w.guards) : TableStep w w' :=
  .turned turn (.same events) (after ▸ .refl _)

theorem dropGuard_kept {w : World} {d : DispatcherId} (kept : w.keeps d = true) (key : Key)
    (generation : UInt64) : w.dropGuard ⟨some d, key, generation⟩ =
      (w.setRegistry d ((w.registry d).removeGeneration key generation).2).record
        (.released d key generation ((w.registry d).removeGeneration key generation).1) := by
  simp [dropGuard, releaseGuard, kept]

theorem dropGuard_gone {w : World} {d : DispatcherId} (gone : w.keeps d = false) (key : Key)
    (generation : UInt64) : w.dropGuard ⟨some d, key, generation⟩ =
      w.record (.released d key generation false) := by
  simp [dropGuard, releaseGuard, gone]

theorem Deed.tableStep {w w' : World} (h : Deed w w') : TableStep w w' := by
  cases h with
  | quiet tokens cancelled openGates arrivals waking => exact .aside (.of_eq rfl rfl rfl rfl rfl)
  | tell p i h note => exact .aside (.record w fun _ => rfl)
  | createDispatcher settings vacant => exact .createdDispatcher settings vacant rfl
  | dropDispatcher name => exact .droppedDispatcher name rfl
  | createHandler blueprint wish vacant => exact .createdHandler blueprint wish vacant rfl
  | @clone h handler found owned =>
    have more : Aside w (w.modifyHandler h fun x => { x with owned := x.owned + 1 }) :=
      .modifyHandler w h _ (fun _ => rfl) fun _ => id
    exact .aside (more.trans (.retain _ h))
  | @drop h handler found owned =>
    have fewer : Aside w (w.modifyHandler h fun x => { x with owned := x.owned - 1 }) :=
      .modifyHandler w h _ (fun _ => rfl) fun _ => id
    exact .aside (fewer.trans (.release _ h))
  | forget h => exact .aside (.modifyHandler w h _ (fun _ => rfl) fun x hx => by simp at hx)
  | rename h name => exact .aside (.modifyHandler w h _ (fun _ => rfl) fun _ => id)
  | register named found held => exact (TableTurn.insert named found held (.inl rfl)).step rfl
  | @subscribe d h handler name named found owned vacant =>
    exact .turned (.insert named found (.inl owned) (.inr rfl)) (.given name d h _) (.refl _)
  | unregister named found held => exact (TableTurn.remove named found held).step rfl
  | unregisterEmpty d =>
    exact TableTurn.removeNowhere.step (setRegistry_remove_nowhere w d)
  | @dropGuard name guard found =>
    obtain ⟨_ | d, key, generation⟩ := guard
    · exact .turned (d := 0) .nothing (.dropped [] name)
        (by simp only [write, registry_setRegistry_self]; exact .refl _)
    · cases kept : w.keeps d with
      | true =>
        refine .turned (.release found rfl kept) (.dropped _ name) ?_
        rw [dropGuard_kept kept]
        exact .refl _
      | false =>
        refine .turned (.tooLate kept key generation) (.dropped _ name) ?_
        rw [dropGuard_gone kept]
        simp only [write, registry_setRegistry_self]
        exact .refl _
  | purge named => exact (TableTurn.purge named).step rfl
  | arrange perm => exact (TableTurn.arrange perm).step rfl

theorem Aside.beginCall (w : World) (p : PassId) (i : Nat) (pass : Pass) (call : Call) :
    Aside w (w.beginCall p i pass call) := by
  unfold World.beginCall
  split
  · have more : Aside w (w.modifyHandler call.handler fun x => { x with begun := x.begun + 1 }) :=
      modifyHandler w call.handler _ (fun _ => rfl) fun _ => id
    have counted : Aside w (w.countCall call.handler) := more.trans (.of_eq rfl rfl rfl rfl rfl)
    exact (counted.trans (setStatus _ p i _)).trans (record _ fun _ => rfl)
  · exact .refl w

theorem Admits.aside {w admitted : World} {p : PassId} {pass : Pass} {call : Call}
    (h : w.Admits p pass call admitted) : Aside w admitted := by
  cases h with
  | taking idle limited free => exact .modifyPass w p _
  | _ => exact .refl w

/-- Only deeds concern registries. -/
theorem Change.deed_or_aside {w w' : World} (h : Change w w') : Deed w w' ∨ Aside w w' := by
  cases h with
  | deed deed => exact .inl deed
  | start named token sender args caller => exact .inr (.of_eq rfl rfl rfl rfl rfl)
  | queue call_of idle limited short =>
    exact .inr ((Aside.modifyPass w _ _).trans (.setStatus _ _ _ _))
  | begin call_of admits => exact .inr (admits.aside.trans (.beginCall _ _ _ _ _))
  | proceed call_of begun after rest waits => exact .inr (.setStatus w _ _ _)
  | returnCall call_of begun error => exact .inr (.returnCall w _ _ _ error)
  | catchPanic call_of begun isolated payload => exact .inr (.catchPanic w _ _ _ _ payload)
  | complete found running finished => exact .inr (.close w _ _)
  | giveUp found isOpen incomplete unisolated => exact .inr (.abandonPass w _ _)

theorem Change.tableStep {w w' : World} (h : Change w w') : TableStep w w' :=
  h.deed_or_aside.elim Deed.tableStep .aside

theorem history_retainAll (w : World) (hs : List HandlerId) :
    (w.retainAll hs).history = w.history := by
  induction hs generalizing w with
  | nil => rfl
  | cons h hs ih => exact ih (w.retain h)

theorem alive_retain {w : World} {h : HandlerId} (alive : w.alive h = true) :
    (w.retain h).alive = w.alive := by
  funext h'
  by_cases same : h = h'
  · subst same
    rw [alive]
    cases found : w.handlers.find? h with
    | none => simp [World.alive, found] at alive
    | some handler =>
      simp [World.alive, retain, World.modifyHandler, Roster.find?_modify, found, Handler.alive]
  · simp [World.alive, retain, World.modifyHandler, Roster.find?_modify, same]

theorem alive_retainAll {w : World} {hs : List HandlerId} (alive : ∀ h ∈ hs, w.alive h = true) :
    (w.retainAll hs).alive = w.alive := by
  induction hs generalizing w with
  | nil => rfl
  | cons h hs ih =>
    have first := alive_retain (alive h List.mem_cons_self)
    have others : ∀ h' ∈ hs, (w.retain h).alive h' = true := by
      rw [first]
      exact fun h' hh => alive h' (List.mem_cons_of_mem _ hh)
    exact (ih others).trans first

theorem alive_of_mem_live {w : World} {d : DispatcherId} {h : HandlerId}
    (hh : h ∈ (w.snapshotOf d).live) : w.alive h = true := by
  rw [snapshotOf, Registry.live_snapshot] at hh
  obtain ⟨e, member, rfl⟩ := List.mem_map.mp hh
  exact (List.mem_filter.mp member).2

theorem purge_of_no_dead {w : World} {d : DispatcherId} (h : (w.snapshotOf d).dead = 0) :
    ((w.registry d).purge w.alive).2 = w.registry d := by
  have none_dead : ∀ e ∈ (w.registry d).entries.entries, w.alive e.2.handler = true := by
    simpa [snapshotOf, Registry.dead_snapshot, List.filter_eq_nil_iff] using h
  unfold Registry.purge
  simp only [List.filter_eq_self.mpr none_dead]

/-- The survey of a registry writes it, and takes references. -/
theorem survey_written (w : World) (p : PassId) (d : DispatcherId) :
    ∃ events, (events = [] ∧ (w.snapshotOf d).dead = 0 ∨
        ∃ count, events = [.purged d (some p) count]) ∧
      Aside (w.write d (.opened p d (w.snapshotOf d).live (w.snapshotOf d).dead :: events)
        ((w.registry d).purge w.alive).2 w.guards) (w.survey p d) := by
  have retained := Aside.retainAll w (w.snapshotOf d).live
  have alive : (w.retainAll (w.snapshotOf d).live).alive = w.alive :=
    alive_retainAll fun h => alive_of_mem_live
  have registry : (w.retainAll (w.snapshotOf d).live).registry d = w.registry d := by
    unfold World.registry dispatcher
    rw [retained.dispatchers]
  unfold survey sweep
  dsimp only
  split
  · rename_i none_dead
    refine ⟨[], .inl ⟨rfl, none_dead⟩, ?_⟩
    rw [purge_of_no_dead none_dead]
    refine ⟨?_, retained.names, retained.guards, retained.handlers, [], ?_, by simp⟩
    · simp only [write, registry_setRegistry_self]
      exact retained.dispatchers
    · exact congrArg (_ :: ·) (history_retainAll w _)
  · refine ⟨[.purged d (some p) ((w.registry d).purge w.alive).1], .inr ⟨_, rfl⟩, ?_⟩
    unfold World.purge
    rw [alive, registry]
    refine ⟨?_, retained.names, retained.guards, retained.handlers, [], ?_, by simp⟩
    · simp only [write, setRegistry, record]
      rw [retained.dispatchers]
    · exact congrArg (_ :: _ :: ·) (history_retainAll w _)

theorem dispatchers_survey (w : World) (p : PassId) (d : DispatcherId) :
    (w.survey p d).dispatchers =
      (w.setRegistry d ((w.registry d).purge w.alive).2).dispatchers := by
  obtain ⟨events, -, aside⟩ := survey_written w p d
  exact aside.dispatchers

theorem settings_setRegistry (w : World) (d e : DispatcherId) (registry : Registry) :
    (w.setRegistry d registry).settings e = w.settings e := by
  unfold settings dispatcher setRegistry
  rw [List.getElem?_modify]
  split
  · cases w.dispatchers[e]? <;> rfl
  · cases w.dispatchers[e]? <;> rfl

theorem settings_survey (w : World) (p : PassId) (d e : DispatcherId) :
    (w.survey p d).settings e = w.settings e := by
  unfold settings dispatcher
  rw [dispatchers_survey]
  exact settings_setRegistry ..

theorem Aside.setCalls (w : World) (p : PassId) (calls : List Call) (permits : Option Permits)
    (due : List Nat) : Aside w ((w.setCalls p calls permits).makeDue p due) :=
  .of_eq rfl rfl rfl rfl rfl

theorem Aside.enterPass (w : World) (p : PassId) (d : DispatcherId) (live : List HandlerId) :
    Aside w (w.enterPass p d live) := by
  unfold World.enterPass
  split
  · exact (Aside.releaseAll _ _).trans (.close _ _ _)
  · exact .setCalls _ _ _ _ _

theorem survey_opened (w : World) (p : PassId) (pass : Pass) :
    Aside (w.survey p pass.dispatcher) (w.openPass p pass).1 := by
  rw [openPass_fst]
  exact .enterPass _ _ _ _

theorem Progress.tableStep {w w' : World} (h : Progress w w') : TableStep w w' := by
  cases h with
  | change change => exact change.tableStep
  | @opening p pass found fresh =>
    obtain ⟨events, swept, aside⟩ := survey_written w p pass.dispatcher
    exact .turned (.sweep found fresh rfl swept) (.same _) (aside.trans (survey_opened w p pass))

end World
end Fanout
