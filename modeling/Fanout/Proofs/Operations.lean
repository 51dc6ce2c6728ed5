import Fanout.Proofs.Footprint

/-! What is done to the registry of a dispatcher in a run, read off the moves alone: which actions
of the parties and of handlers reach the registry, and which moves are first polls of its passes. Of
each operation the history tells in its own way, and of nothing else. -/
namespace Fanout

inductive Operation
  | register (handler : HandlerId)
  | subscribe (guard : String) (handler : HandlerId)
  | unregister (handler : HandlerId)
  /-- The guard that was last given out by this name is let go. -/
  | release (guard : String)
  /-- The registry is purged, on demand or by the first poll of a pass, when these handlers have
  been reclaimed. -/
  | sweep (reclaimed : List HandlerId)
  deriving DecidableEq, Repr

namespace Operation

def registrant? : Operation → Option HandlerId
  | register h => some h
  | subscribe _ h => some h
  | _ => none

/-- How many registrations there were, the latest of the operations first. -/
def inserts (ops : List Operation) : Nat := ops.countP fun op => op.registrant?.isSome

theorem inserts_le_append (later earlier : List Operation) :
    inserts earlier ≤ inserts (later ++ earlier) := by
  rw [inserts, inserts, List.countP_append]
  exact Nat.le_add_left ..

/-- The position of the handler's latest registration among all registrations. -/
def latest (h : HandlerId) : List Operation → Option Nat
  | [] => none
  | op :: earlier =>
      if op.registrant? = some h then some (inserts earlier + 1) else latest h earlier

/-- The position of the registration with which the guard was given out. -/
def given (guard : String) : List Operation → Option Nat
  | [] => none
  | subscribe name _ :: earlier =>
      if name = guard then some (inserts earlier + 1) else given guard earlier
  | _ :: earlier => given guard earlier

/-- The operation takes the handler out of the registry. A guard does so only if no later operation
registered its handler. -/
def removes (h : HandlerId) (earlier : List Operation) : Operation → Bool
  | unregister x => x = h
  | release guard => (given guard earlier).isSome && latest h earlier = given guard earlier
  | sweep reclaimed => reclaimed.contains h
  | _ => false

/-- The position of the registration that stands for the handler, if the last operation that
concerns it registered it. -/
def standing (h : HandlerId) : List Operation → Option Nat
  | [] => none
  | op :: earlier =>
      if op.registrant? = some h then some (inserts earlier + 1)
      else if op.removes h earlier then none
      else standing h earlier

end Operation

namespace World

def calls (w : World) (d : DispatcherId) (name : Option String) : Bool :=
  name.any fun name => w.names.find? name = some d

/-- A handler to which the owner of the world holds a strong reference. -/
def owned? (w : World) (name : Option String) : Option HandlerId :=
  name.filter fun h => (w.handlers.find? h).any fun handler => handler.owned ≠ 0

/-- The handler of a weak handle that was not given up. -/
def shown? (w : World) : Option Handle → Option HandlerId
  | some (.of h) => if (w.handlers.find? h).any Handler.watched then some h else none
  | _ => none

def held? (w : World) (d : DispatcherId) (name : Option String) : Option String :=
  name.filter fun name => (w.guards.find? name).any fun guard => guard.dispatcher = some d

def unused? (w : World) (name : Option String) : Option String :=
  name.filter fun name => !w.guards.has name

def reclaimed (w : World) : List HandlerId := w.handlers.keys.filter fun h => !w.alive h

/-- What the action does to the registry of the dispatcher, unless it is refused. -/
def operation? (w : World) (d : DispatcherId) : Action → Option Operation
  | .register name handler => if w.calls d name then (w.owned? handler).map .register else none
  | .registerWeak name handle =>
      -- a weak handle is accepted as long as its handler lives
      if w.calls d name then ((w.shown? handle).filter w.alive).map .register else none
  | .unregister name handler => if w.calls d name then (w.owned? handler).map .unregister else none
  | .unregisterWeak name handle =>
      if w.calls d name then (w.shown? handle).map .unregister else none
  | .subscribe guard name handler =>
      if w.calls d name then
        (w.unused? guard).bind fun guard => (w.owned? handler).map (.subscribe guard)
      else none
  | .unsubscribe guard => (w.held? d guard).map .release
  | .dropGuard guard => (w.held? d guard).map .release
  | .purge name => if w.calls d name then some (.sweep w.reclaimed) else none
  | _ => none

end World

namespace Machine

def opensAt (m : Machine) (d : DispatcherId) : Bool :=
  match m.control with
  | .entering p _ => m.isOpening p && (m.world.passes[p]?).any (·.dispatcher = d)
  | _ => false

def operation? (m : Machine) (d : DispatcherId) (move : Move) : Option Operation :=
  match m.actionOf move with
  | some action => m.world.operation? d action
  | none => if move = .tick && m.opensAt d then some (.sweep m.world.reclaimed) else none

/-- What the run does to the registry of the dispatcher, the latest first. -/
def operations (m : Machine) (d : DispatcherId) : List Move → List Operation
  | [] => []
  | move :: moves => (m.move move).operations d moves ++ (m.operation? d move).toList

end Machine

namespace World

theorem calls_eq {w : World} {name : Option String} {e : DispatcherId}
    (called : w.dispatcherCalled name = .ok e) (d : DispatcherId) :
    w.calls d name = decide (e = d) := by
  obtain ⟨n, rfl, found⟩ := dispatcherCalled_eq_ok_iff.mp called
  simp [calls, found]

theorem called_of_calls {w : World} {name : Option String} {d : DispatcherId}
    (calls : w.calls d name = true) : w.dispatcherCalled name = .ok d := by
  refine dispatcherCalled_eq_ok_iff.mpr ?_
  cases name with
  | none => cases calls
  | some n => exact ⟨n, rfl, by simpa [World.calls] using calls⟩

theorem owned?_iff {w : World} {name : Option String} {h : HandlerId} :
    w.owned? name = some h ↔ ∃ handler, w.handlerOwned name = .ok (h, handler) := by
  simp only [handlerOwned_eq_ok_iff, owned?, Option.filter_eq_some_iff]
  cases w.handlers.find? h <;> simp

theorem shown?_iff {w : World} {handle : Option Handle} {h : HandlerId} :
    w.shown? handle = some h ↔ w.handleCalled handle = .ok (some h) := by
  rw [handleCalled_eq_ok_iff]
  match handle with
  | none => simp [shown?]
  | some .empty => simp [shown?]
  | some (.of x) =>
    simp only [shown?, Option.ite_none_right_eq_some, Option.some.injEq, Handle.of.injEq]
    constructor
    · rintro ⟨watched, rfl⟩
      exact ⟨rfl, by simpa [Option.any_eq_true] using watched⟩
    · rintro ⟨rfl, handler, found, watched⟩
      exact ⟨by simp [found, watched], rfl⟩

theorem shown?_eq {w : World} {handle : Option Handle} {called : Option HandlerId}
    (shown : w.handleCalled handle = .ok called) : w.shown? handle = called := by
  ext h
  rw [shown?_iff, shown, Except.ok.injEq]

theorem map_held? {w : World} {name : Option String} {n : String} {guard : Guard}
    (held : lookUp w.guards .noSub name = .ok (n, guard)) (d : DispatcherId) :
    (w.held? d name).map .release =
      if guard.dispatcher = some d then some (Operation.release n) else none := by
  obtain ⟨rfl, found⟩ := lookUp_eq_ok_iff.mp held
  simp only [held?, Option.filter_some, found, Option.any_some, decide_eq_true_eq]
  split <;> rfl

theorem lookUp_of_held? {w : World} {d : DispatcherId} {name : Option String} {n : String}
    (held : w.held? d name = some n) : ∃ guard, lookUp w.guards .noSub name = .ok (n, guard) := by
  obtain ⟨rfl, found⟩ := Option.filter_eq_some_iff.mp held
  obtain ⟨guard, found, -⟩ := (Option.any_eq_true ..).mp found
  exact ⟨guard, lookUp_eq_ok_iff.mpr ⟨rfl, found⟩⟩

theorem unused?_iff {w : World} {name : Option String} {n : String} :
    w.unused? name = some n ↔ vacant w.guards name = .ok n := by
  rw [vacant_eq_ok_iff, unused?, Option.filter_eq_some_iff]
  simp

/-- What the history tells of what is done to the registry of the dispatcher. -/
inductive Told (w : World) (d : DispatcherId) : Option Operation → List Event → Prop
  | nothing : Told w d none []
  | register (h : HandlerId) :
      Told w d (some (.register h)) [.registered d h ((w.registry d).counter + 1)]
  | subscribe (guard : String) (h : HandlerId) :
      Told w d (some (.subscribe guard h)) [.subscribed d h ((w.registry d).counter + 1)]
  | unregister (h : HandlerId) (removed : Bool) :
      Told w d (some (.unregister h)) [.unregistered d h removed]
  /-- The weak handle of a dead handler that has no entry is refused. -/
  | refused {h : HandlerId} (named : w.Named d)
      (absent : (w.registry d).find? (w.keyOf h) = none) : Told w d (some (.unregister h)) []
  | release {name : String} {guard : Guard} (held : w.guards.find? name = some guard)
      (belongs : guard.dispatcher = some d) (removed : Bool) :
      Told w d (some (.release name)) [.released d guard.key guard.generation removed]
  | purge (count : Nat) : Told w d (some (.sweep w.reclaimed)) [.purged d none count]
  | poll (p : PassId) (live : List HandlerId) (dead : Nat) {events : List Event}
      (swept : events = [] ∧ (w.snapshotOf d).dead = 0 ∨
        ∃ count, events = [.purged d (some p) count]) :
      Told w d (some (.sweep w.reclaimed)) (.opened p d live dead :: events)

theorem Told.elsewhere {w : World} {d e : DispatcherId} {op : Option Operation}
    {events : List Event} (told : w.Told e op events) (other : e ≠ d) :
    ∀ event ∈ events, Event.touches d event = false := by
  cases told with
  | poll p live dead swept =>
    rcases swept with ⟨rfl, -⟩ | ⟨count, rfl⟩ <;> simp [Event.touches, other]
  | _ => simp [Event.touches, other]

/-- A step is this to the registry of the dispatcher: the history tells of the operation and of
nothing else, and the guards of the dispatcher are old ones, but for one that is given out. -/
structure Enacts (w : World) (d : DispatcherId) (op : Option Operation) (w' : World) : Prop where
  history : ∃ later events, w'.history = later ++ (events ++ w.history) ∧
    (∀ e ∈ later, Event.touches d e = false) ∧ w.Told d op events
  guards : ∀ name guard, w'.guards.find? name = some guard → guard.dispatcher = some d →
    (∃ h, op = some (.subscribe name h) ∧ guard.generation = (w.registry d).counter + 1) ∨
      w.guards.find? name = some guard ∧ ∀ h, op ≠ some (.subscribe name h)

namespace Enacts
variable {w v w' : World} {d : DispatcherId} {op : Option Operation}

theorem trans_aside (enacts : w.Enacts d op v) (aside : Aside v w') : w.Enacts d op w' := by
  obtain ⟨later, events, history, quiet, told⟩ := enacts.history
  obtain ⟨after, grown, silent⟩ := aside.history
  refine ⟨⟨after ++ later, events, ?_, ?_, told⟩, fun name guard found => ?_⟩
  · rw [grown, history, List.append_assoc]
  · intro e he
    exact (List.mem_append.mp he).elim (silent d e) (quiet e)
  · rw [aside.guards] at found
    exact enacts.guards name guard found

/-- Nothing is done to the registry. -/
theorem nothing (history : w'.history = w.history)
    (guards : ∀ name guard, w'.guards.find? name = some guard → w.guards.find? name = some guard) :
    w.Enacts d none w' :=
  ⟨⟨[], [], history, by simp, .nothing⟩,
    fun name guard found _ => .inr ⟨guards name guard found, by simp⟩⟩

theorem refl (w : World) (d : DispatcherId) : w.Enacts d none w :=
  nothing rfl fun _ _ => id

theorem aside (aside : Aside w w') : w.Enacts d none w' := (refl w d).trans_aside aside

/-- What is done to one registry is nothing to the others. -/
theorem of_told {e : DispatcherId} {events : List Event} (told : w.Told e op events)
    (history : w'.history = events ++ w.history)
    (guards : ∀ name guard, w'.guards.find? name = some guard →
      (∃ h, op = some (.subscribe name h) ∧ guard.dispatcher = some e ∧
        guard.generation = (w.registry e).counter + 1) ∨
      w.guards.find? name = some guard ∧ ∀ h, op ≠ some (.subscribe name h)) :
    w.Enacts d (if e = d then op else none) w' := by
  by_cases same : e = d
  · subst same
    rw [if_pos rfl]
    refine ⟨⟨[], events, history, by simp, told⟩, fun name guard found belongs => ?_⟩
    exact (guards name guard found).imp_left fun ⟨h, given, _, next⟩ => ⟨h, given, next⟩
  · rw [if_neg same]
    refine ⟨⟨events, [], history, told.elsewhere same, .nothing⟩,
      fun name guard found belongs => ?_⟩
    rcases guards name guard found with ⟨h, -, elsewhere, -⟩ | ⟨before, -⟩
    · rw [elsewhere] at belongs
      exact absurd (Option.some.inj belongs) same
    · exact .inr ⟨before, by simp⟩

theorem of_told_plain {e : DispatcherId} {events : List Event} (told : w.Told e op events)
    (plain : ∀ name h, op ≠ some (.subscribe name h)) (history : w'.history = events ++ w.history)
    (guards : ∀ name guard, w'.guards.find? name = some guard → w.guards.find? name = some guard) :
    w.Enacts d (if e = d then op else none) w' :=
  of_told told history fun name guard found => .inr ⟨guards name guard found, plain name⟩

end Enacts

section
variable (w : World) (d e : DispatcherId) (h : HandlerId)

theorem enacts_register :
    w.Enacts d (if e = d then some (.register h) else none) (w.register e h) :=
  .of_told_plain (.register h) nofun rfl fun _ _ => id

theorem enacts_unregister :
    w.Enacts d (if e = d then some (.unregister h) else none) (w.unregister e h).1 :=
  .of_told_plain (.unregister h _) nofun rfl fun _ _ => id

theorem enacts_purge :
    w.Enacts d (if e = d then some (.sweep w.reclaimed) else none) (w.purge e none).1 :=
  .of_told_plain (.purge _) nofun rfl fun _ _ => id

theorem enacts_subscribe (name : String) :
    w.Enacts d (if e = d then some (.subscribe name h) else none)
      { (w.subscribe e h).1 with guards := w.guards.put name (w.subscribe e h).2 } := by
  refine .of_told (.subscribe name h) rfl fun other guard found => ?_
  rw [Roster.find?_put] at found
  split at found
  · rename_i same
    cases found
    exact .inl ⟨h, by rw [same], rfl, rfl⟩
  · rename_i different
    refine .inr ⟨found, fun x same => different ?_⟩
    cases same
    rfl

/-- A handler is not registered by a weak handle once it is dead. -/
theorem enacts_registerWeak :
    w.Enacts d (if e = d then ((some h).filter w.alive).map .register else none)
      (w.registerWeak e (some h)).1 := by
  rw [registerWeak_some]
  by_cases alive : w.alive h = true
  · rw [if_pos alive, Option.filter_some, if_pos alive]
    exact enacts_register w d e h
  · rw [if_neg alive, Option.filter_some, if_neg alive, Option.map_none, ite_self]
    exact .refl w d

theorem enacts_unregisterWeak (named : w.Named e) :
    w.Enacts d (if e = d then some (.unregister h) else none) (w.unregisterWeak e (some h)).1 := by
  rcases unregisterWeak_some w e h with removed | ⟨refused, absent⟩
  · rw [removed]
    exact enacts_unregister w d e h
  · rw [refused]
    exact .of_told_plain (.refused named absent) nofun rfl fun _ _ => id

theorem enacts_dropGuard {name : String} {guard : Guard} (held : w.guards.find? name = some guard) :
    w.Enacts d (if guard.dispatcher = some d then some (.release name) else none)
      { w.dropGuard guard with guards := w.guards.erase name } := by
  have left : ∀ other x, (w.guards.erase name).find? other = some x →
      w.guards.find? other = some x := by
    intro other x found
    rw [Roster.find?_erase] at found
    split at found
    · cases found
    · exact found
  obtain ⟨_ | e, key, generation⟩ := guard
  · rw [if_neg (by simp)]
    exact .nothing rfl left
  · simp only [Option.some.injEq]
    cases kept : w.keeps e with
    | true =>
      rw [dropGuard_kept kept]
      exact .of_told_plain (.release held rfl _) (by simp) rfl left
    | false =>
      rw [dropGuard_gone kept]
      exact .of_told_plain (.release held rfl false) (by simp) rfl left

end

theorem enacts_attempt {w after : World} {action : Action} {answer : Answer}
    (h : w.attempt action = .ok (after, answer)) (d : DispatcherId) :
    w.Enacts d (w.operation? d action) after := by
  -- the actions that reach a registry come first, and after them those that reach none
  cases action with
  | register name handler =>
    obtain ⟨e, called, h⟩ := bind_eq_ok h
    obtain ⟨⟨x, _⟩, owned, h⟩ := bind_eq_ok h
    cases h
    simp only [operation?, calls_eq called, owned?_iff.mpr ⟨_, owned⟩, decide_eq_true_eq]
    exact enacts_register w d e x
  | registerWeak name handle =>
    obtain ⟨e, called, h⟩ := bind_eq_ok h
    obtain ⟨handler, shown, h⟩ := bind_eq_ok h
    cases h
    simp only [operation?, calls_eq called, shown?_eq shown, decide_eq_true_eq]
    cases handler with
    | none =>
      rw [Option.filter_none, Option.map_none, ite_self]
      exact .refl w d
    | some x => exact enacts_registerWeak w d e x
  | unregister name handler =>
    obtain ⟨e, called, h⟩ := bind_eq_ok h
    obtain ⟨⟨x, _⟩, owned, h⟩ := bind_eq_ok h
    cases h
    simp only [operation?, calls_eq called, owned?_iff.mpr ⟨_, owned⟩, decide_eq_true_eq]
    exact enacts_unregister w d e x
  | unregisterWeak name handle =>
    obtain ⟨e, called, h⟩ := bind_eq_ok h
    obtain ⟨handler, shown, h⟩ := bind_eq_ok h
    cases h
    simp only [operation?, calls_eq called, shown?_eq shown, decide_eq_true_eq]
    cases handler with
    | none =>
      rw [setRegistry_remove_nowhere, Option.map_none, ite_self]
      exact .nothing rfl fun _ _ => id
    | some x => exact enacts_unregisterWeak w d e x (dispatcherCalled_eq_ok called)
  | subscribe guard name handler =>
    obtain ⟨g, unused, h⟩ := bind_eq_ok h
    obtain ⟨e, called, h⟩ := bind_eq_ok h
    obtain ⟨⟨x, _⟩, owned, h⟩ := bind_eq_ok h
    cases h
    simp only [operation?, calls_eq called, owned?_iff.mpr ⟨_, owned⟩, unused?_iff.mpr unused,
      decide_eq_true_eq]
    exact enacts_subscribe w d e x g
  | unsubscribe name =>
    obtain ⟨⟨n, guard⟩, held, h⟩ := bind_eq_ok h
    simp only [unsubscribe_eq] at h
    cases h
    rw [operation?, map_held? held]
    exact enacts_dropGuard w d (lookUp_eq_ok held)
  | dropGuard name =>
    obtain ⟨⟨n, guard⟩, held, h⟩ := bind_eq_ok h
    cases h
    rw [operation?, map_held? held]
    exact enacts_dropGuard w d (lookUp_eq_ok held)
  | purge name =>
    obtain ⟨e, called, h⟩ := bind_eq_ok h
    cases h
    simp only [operation?, calls_eq called, decide_eq_true_eq]
    exact enacts_purge w d e
  | createDispatcher _ _ | createHandler _ _ _ | closeGate _ =>
    obtain ⟨_, -, h⟩ := bind_eq_ok h
    cases h
    exact .nothing rfl fun _ _ => id
  | dropDispatcher _ | clone _ | forget _ =>
    obtain ⟨⟨_, _⟩, -, h⟩ := bind_eq_ok h
    cases h
    exact .nothing rfl fun _ _ => id
  | alive _ | count _ | describe _ | cancelled _ =>
    obtain ⟨_, -, h⟩ := bind_eq_ok h
    cases h
    exact .refl w d
  | guardState _ =>
    obtain ⟨⟨_, _⟩, -, h⟩ := bind_eq_ok h
    cases h
    exact .refl w d
  | drop name =>
    obtain ⟨⟨n, handler⟩, -, h⟩ := bind_eq_ok h
    cases h
    have fewer : w.Enacts d none (w.modifyHandler n fun x => { x with owned := x.owned - 1 }) :=
      .nothing rfl fun _ _ => id
    exact fewer.trans_aside (.release _ n)
  | handlerName name =>
    obtain ⟨⟨n, handler⟩, -, h⟩ := bind_eq_ok h
    cases read : handler.naming.read <;> simp only [read] at h <;> cases h <;> exact .refl w d
  | rename name newName =>
    obtain ⟨⟨n, handler⟩, -, h⟩ := bind_eq_ok h
    obtain ⟨new, -, h⟩ := bind_eq_ok h
    cases h
    exact .nothing rfl fun _ _ => id
  | createToken name =>
    obtain ⟨n, -, h⟩ := bind_eq_ok h
    split at h <;> cases h
    exact .nothing rfl fun _ _ => id
  | cancel name =>
    obtain ⟨token, -, h⟩ := bind_eq_ok h
    cases h
    exact .aside (.cancelToken w token)
  | openGate name =>
    obtain ⟨gate, -, h⟩ := bind_eq_ok h
    cases h
    exact .aside (.openGate w gate)
  | stats => cases h; exact .refl w d
  | peak => cases h; exact .refl w d
  | unknown label => cases h

theorem attempt_of_operation? {w : World} {d : DispatcherId} {action : Action} {op : Operation}
    (done : w.operation? d action = some op) : ∃ result, w.attempt action = .ok result := by
  cases action with
  | register name handler | unregister name handler =>
    simp only [operation?, Option.ite_none_right_eq_some, Option.map_eq_some_iff] at done
    obtain ⟨calls, h, owned, -⟩ := done
    obtain ⟨x, owned⟩ := owned?_iff.mp owned
    exact ⟨_, by rw [attempt, called_of_calls calls, owned]; rfl⟩
  | registerWeak name handle =>
    simp only [operation?, Option.ite_none_right_eq_some, Option.map_eq_some_iff,
      Option.filter_eq_some_iff] at done
    obtain ⟨calls, h, ⟨shown, -⟩, -⟩ := done
    exact ⟨_, by rw [attempt, called_of_calls calls, shown?_iff.mp shown]; rfl⟩
  | unregisterWeak name handle =>
    simp only [operation?, Option.ite_none_right_eq_some, Option.map_eq_some_iff] at done
    obtain ⟨calls, h, shown, -⟩ := done
    exact ⟨_, by rw [attempt, called_of_calls calls, shown?_iff.mp shown]; rfl⟩
  | subscribe guard name handler =>
    simp only [operation?, Option.ite_none_right_eq_some, Option.bind_eq_some_iff,
      Option.map_eq_some_iff] at done
    obtain ⟨calls, g, unused, h, owned, -⟩ := done
    obtain ⟨x, owned⟩ := owned?_iff.mp owned
    exact ⟨_, by rw [attempt, unused?_iff.mp unused, called_of_calls calls, owned]; rfl⟩
  | unsubscribe guard | dropGuard guard =>
    simp only [operation?, Option.map_eq_some_iff] at done
    obtain ⟨g, held, -⟩ := done
    obtain ⟨x, held⟩ := lookUp_of_held? held
    exact ⟨_, by rw [attempt, held]; rfl⟩
  | purge name =>
    simp only [operation?, Option.ite_none_right_eq_some] at done
    exact ⟨_, by rw [attempt, called_of_calls done.1]; rfl⟩
  | _ => cases done

/-- What is refused does nothing. -/
theorem operation?_of_refused {w : World} {action : Action} {refusal : Refusal}
    (refused : w.attempt action = .error refusal) (d : DispatcherId) :
    w.operation? d action = none := by
  cases done : w.operation? d action with
  | none => rfl
  | some op =>
    obtain ⟨result, accepted⟩ := attempt_of_operation? done
    rw [refused] at accepted
    cases accepted

theorem enacts_perform (w : World) (d : DispatcherId) (action : Action) :
    w.Enacts d (w.operation? d action) (w.perform action).1 := by
  unfold perform
  split
  · rename_i h
    exact enacts_attempt h d
  · rename_i refused
    rw [operation?_of_refused refused]
    exact .refl w d

theorem enacts_reorder (w : World) (d e : DispatcherId) (order : List (Key × Registration)) :
    w.Enacts d none (w.reorder e order) := by
  unfold reorder
  split
  · exact .nothing rfl fun _ _ => id
  · exact .refl w d

theorem enacts_openPass (w : World) (d : DispatcherId) (p : PassId) (pass : Pass) :
    w.Enacts d (if pass.dispatcher = d then some (.sweep w.reclaimed) else none)
      (w.openPass p pass).1 := by
  obtain ⟨events, swept, surveyed⟩ := survey_written w p pass.dispatcher
  refine Enacts.trans_aside ?_ (surveyed.trans (survey_opened w p pass))
  exact .of_told_plain (.poll p _ _ swept) nofun rfl fun _ _ => id

end World

namespace Machine
open World

theorem opensAt_eq {m : Machine} {p : PassId} {pass : Pass} (opening : m.isOpening p = true)
    (found : m.world.passes[p]? = some pass) (d : DispatcherId) :
    m.opensAt d = decide (pass.dispatcher = d) := by
  obtain ⟨w, control⟩ := m
  cases control with
  | entering q outer =>
    have same : q = p := by
      simp only [isOpening, Bool.and_eq_true, decide_eq_true_eq] at opening
      exact opening.1
    subst same
    simp [opensAt, opening, found]
  | _ => cases opening

theorem not_opensAt {m : Machine} (plain : ∀ p, m.isOpening p = false) (d : DispatcherId) :
    m.opensAt d = false := by
  unfold opensAt
  split
  · rw [plain, Bool.false_and]
  · rfl

theorem actionOf_of_isOpening {m : Machine} {p : PassId} (opening : m.isOpening p = true) :
    m.actionOf .tick = none := by
  obtain ⟨w, control⟩ := m
  cases control with
  | entering q outer => rfl
  | _ => cases opening

/-- What every move comes to for the registry of a dispatcher. -/
theorem enacts_move (m : Machine) (d : DispatcherId) (move : Move) :
    m.world.Enacts d (m.operation? d move) (m.move move).world := by
  by_cases plain : move = .tick → ∀ p, m.isOpening p = false
  · refine Enacts.trans_aside ?_ (aside_move m plain)
    have closed : (move = .tick && m.opensAt d) = false := by
      by_cases tick : move = .tick
      · rw [not_opensAt (plain tick), Bool.and_false]
      · simp [tick]
    unfold operation? acted
    rw [closed]
    cases m.actionOf move with
    | some action => exact enacts_perform m.world d action
    | none =>
      cases move with
      | reorder e order => exact enacts_reorder m.world d e order
      | _ => exact .refl m.world d
  · simp only [Classical.not_imp, not_forall, Bool.not_eq_false] at plain
    obtain ⟨rfl, p, opening⟩ := plain
    obtain ⟨pass, waking, found, after⟩ := move_isOpening opening
    rw [after, operation?, actionOf_of_isOpening opening]
    simp only [decide_true, Bool.true_and, opensAt_eq opening found, decide_eq_true_eq]
    exact (enacts_openPass m.world d p pass).trans_aside (.setWaking _ waking)

end Machine

end Fanout
