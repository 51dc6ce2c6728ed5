import Fanout.World.Registration

/-!
Actions on a world. What an action names is looked up in a fixed order: first a name that is to be
new or is the action's own, then the dispatcher, then the handler. The first name that is missing
or does not fit decides the refusal, and a refused action changes nothing.
-/
namespace Fanout.World

def need (name : Option String) : Except Refusal String :=
  match name with
  | some name => .ok name
  | none => .error .badOp

/-- What goes by a name, or else a refusal of its own kind. -/
def lookUp {α : Type} (roster : Roster String α) (refusal : Refusal) (name : Option String) :
    Except Refusal (String × α) := do
  let name ← need name
  match roster.find? name with
  | some x => return (name, x)
  | none => throw refusal

/-- A name that must not be taken. -/
def vacant {α : Type} (roster : Roster String α) (name : Option String) :
    Except Refusal String := do
  let name ← need name
  if roster.has name then throw .taken else return name

def dispatcherCalled (w : World) (name : Option String) : Except Refusal DispatcherId := do
  return (← lookUp w.names .noDispatcher name).2

def handlerCalled (w : World) (name : Option String) : Except Refusal (HandlerId × Handler) :=
  lookUp w.handlers .noHandler name

/-- A handler to which the owner of the world holds a strong reference. -/
def handlerOwned (w : World) (name : Option String) : Except Refusal (HandlerId × Handler) := do
  let (h, handler) ← w.handlerCalled name
  if handler.owned = 0 then throw .noStrong else return (h, handler)

/-- The handler behind a weak handle, none behind an empty one. -/
def handleCalled (w : World) (handle : Option Handle) : Except Refusal (Option HandlerId) :=
  match handle with
  | some (.of name) => do
      let (h, handler) ← w.handlerCalled name
      if handler.watched then return some h else throw .noHandler
  | some .empty => return none
  | none => throw .badOp

def tokenCalled (w : World) (name : Option String) : Except Refusal Token := do
  let name ← need name
  if w.tokens.contains name then return .named name else throw .noToken

def isCancelled (w : World) (token : Token) : Bool := w.cancelled.contains token

def cancelToken (w : World) (token : Token) : World :=
  if w.isCancelled token then w
  else { w with cancelled := token :: w.cancelled }.signal (.cancellation token)

def openGate (w : World) (gate : String) : World :=
  { w with openGates := gate :: w.openGates.filter (· ≠ gate) }.signal (.gate gate)

theorem passes_cancelToken (w : World) (token : Token) :
    (w.cancelToken token).passes = w.passes := by
  unfold cancelToken
  split
  · rfl
  · exact passes_signal ..

def guardAnswer (w : World) (guard : Guard) : Answer :=
  let active := w.isActive guard
  let shape := guard.shape active
  .guardState active shape.inline shape.pretty

/-- Makes a handler, with one strong reference and a weak handle to it. -/
def createHandler (w : World) (h : HandlerId) (blueprint : Nat) (wish : Option Nat) : World :=
  let handler := Handler.ofBlueprint h (w.addressFor wish) (w.blueprints.getD blueprint {})
  { w with handlers := w.handlers.put h handler }

/-- Does what the action says, or says why it cannot be done. -/
def attempt (w : World) : Action → Except Refusal (World × Answer)
  | .createDispatcher name source => do
      let name ← vacant w.names name
      let settings := Settings.ofSource source
      let created :=
        { w with
          dispatchers := w.dispatchers ++ [{ settings }],
          names := w.names.put name w.dispatchers.length }
      return (created, .settings settings)
  | .dropDispatcher name => do
      let (name, _) ← lookUp w.names .noDispatcher name
      return ({ w with names := w.names.erase name }, .nothing)
  | .createHandler name blueprint wish => do
      let h ← vacant w.handlers name
      return (w.createHandler h blueprint wish, .nothing)
  | .clone name => do
      let (h, handler) ← w.handlerOwned name
      let cloned := w.modifyHandler h fun x => { x with owned := x.owned + 1 }
      return (cloned.retain h, .number (handler.owned + 1))
  | .drop name => do
      let (h, handler) ← w.handlerOwned name
      let dropped := w.modifyHandler h fun x => { x with owned := x.owned - 1 }
      return (dropped.release h, .number (handler.owned - 1))
  | .forget name => do
      let (h, _) ← w.handlerCalled name
      return (w.modifyHandler h fun x => { x with watched := false }, .nothing)
  | .alive handle => do return (w, .flag (w.handleAlive (← w.handleCalled handle)))
  | .handlerName name => do
      let (_, handler) ← w.handlerOwned name
      match handler.naming.read with
      | .ok text => return (w, .text text)
      | .error payload => return (w, .panicked payload.text?)
  | .rename name newName => do
      let (h, _) ← w.handlerCalled name
      let newName ← need newName
      return (w.modifyHandler h fun x => { x with naming := x.naming.rename newName }, .nothing)
  | .register d name => do
      let d ← w.dispatcherCalled d
      let (h, _) ← w.handlerOwned name
      return (w.register d h, .nothing)
  | .registerWeak d handle => do
      let d ← w.dispatcherCalled d
      let outcome := w.registerWeak d (← w.handleCalled handle)
      return (outcome.1, .ofExcept (fun _ => .done) outcome.2)
  | .unregister d name => do
      let d ← w.dispatcherCalled d
      let (h, _) ← w.handlerOwned name
      let (unregistered, removed) := w.unregister d h
      return (unregistered, .flag removed)
  | .unregisterWeak d handle => do
      let d ← w.dispatcherCalled d
      let outcome := w.unregisterWeak d (← w.handleCalled handle)
      return (outcome.1, .ofExcept .flag outcome.2)
  | .subscribe guardName d name => do
      let guardName ← vacant w.guards guardName
      let d ← w.dispatcherCalled d
      let (h, _) ← w.handlerOwned name
      let (subscribed, guard) := w.subscribe d h
      let shape := guard.shape (subscribed.isActive guard)
      return ({ subscribed with guards := w.guards.put guardName guard }, .text shape.inline)
  | .unsubscribe name => do
      let (name, guard) ← lookUp w.guards .noSub name
      let (released, removed) := w.unsubscribe guard
      return ({ released with guards := w.guards.erase name }, .flag removed)
  | .dropGuard name => do
      let (name, guard) ← lookUp w.guards .noSub name
      return ({ w.dropGuard guard with guards := w.guards.erase name }, .nothing)
  | .guardState name => do
      let (_, guard) ← lookUp w.guards .noSub name
      return (w, w.guardAnswer guard)
  | .count name => do
      let dispatcher := w.dispatcher (← w.dispatcherCalled name)
      return (w, .census dispatcher.handlerCount dispatcher.isEmpty)
  | .purge name => do
      let (purged, count) := w.purge (← w.dispatcherCalled name) none
      return (purged, .number count)
  | .describe name => do
      let dispatcher := w.dispatcher (← w.dispatcherCalled name)
      let shape := dispatcher.shape
      return (w, .portrait dispatcher.settings shape.inline shape.pretty)
  | .createToken name => do
      let name ← need name
      if w.tokens.contains name then throw .taken
      else return ({ w with tokens := name :: w.tokens }, .nothing)
  | .cancel name => do return (w.cancelToken (← w.tokenCalled name), .nothing)
  | .cancelled name => do return (w, .flag (w.isCancelled (← w.tokenCalled name)))
  | .openGate name => do
      return (w.openGate (← need name), .nothing)
  | .closeGate name => do
      let gate ← need name
      return ({ w with openGates := w.openGates.filter (· ≠ gate) }, .nothing)
  | .stats => return (w, .tally w.tally.begun w.tally.returned w.tally.running)
  | .peak => return (w, .number w.tally.peak)
  | .unknown _ => throw .badOp

theorem passes_attempt {w after : World} {action : Action} {answer : Answer}
    (h : w.attempt action = .ok (after, answer)) : after.passes = w.passes := by
  cases action <;> simp only [attempt, bind, Except.bind, pure, Except.pure] at h
  all_goals (repeat' split at h)
  all_goals first
    | (cases h; done)
    | simp only [Except.ok.injEq, Prod.mk.injEq] at h
      obtain ⟨rfl, -⟩ := h
      first
        | rfl
        | exact passes_release ..
        | exact passes_registerWeak ..
        | exact passes_unregisterWeak ..
        | exact passes_dropGuard ..
        | (rw [unsubscribe_eq]; exact passes_dropGuard ..)
        | exact passes_cancelToken ..
        | exact passes_signal ..

/-- Does what the action says; a refusal leaves the world as it is. -/
def perform (w : World) (action : Action) : World × Answer :=
  match w.attempt action with
  | .ok (after, answer) => (after, answer)
  | .error refusal => (w, .refused refusal)

/-- What is done at once starts no pass, and changes none that is under way. -/
theorem passes_perform (w : World) (action : Action) :
    (w.perform action).1.passes = w.passes := by
  unfold perform
  split
  · rename_i h
    exact passes_attempt h
  · rfl

end Fanout.World
