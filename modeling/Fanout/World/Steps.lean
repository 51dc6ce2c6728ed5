import Fanout.World.Calls

/-!
What a call does between two waits. A step of its script changes the world and has an effect on
the call itself: it goes on, perhaps once something has come true, lets others go first, or ends.
-/
namespace Fanout

/-- What becomes of a call after one of its steps. -/
inductive Effect
  /-- The next step is taken as soon as this wait is over, which may be at once. -/
  | goOn (await : Await)
  /-- The call lets others go first, and so many more times after that. -/
  | giveWay (turns : Nat)
  | finish (verdict : Verdict)
  deriving DecidableEq, Repr

namespace World

/-- Starts the pass of an event, which comes from outside, or which a handler raises in the middle of
a call of some pass. -/
def summon (w : World) (caller : Option (CallId × Pass)) (summons : Summons) :
    Except Refusal (PassId × World) := do
  let d ← w.dispatcherCalled summons.dispatcher
  let token ← match summons.token with
    | some .fresh => pure none
    | some .callers => pure (caller.map (·.2.token))
    | some (.named id) => some <$> w.tokenCalled id
    | none => throw .badOp
  let lineage := match caller with
    | some (call, pass) => call :: pass.lineage
    | none => []
  return w.start d token summons.sender summons.args lineage

/-- A running call need not wait any longer. -/
def isMet (w : World) (token : Token) : Await → Bool
  | .ready => true
  | .turns n => n = 0
  | .gate gate => w.openGates.contains gate
  | .arrivals gate expected => expected ≤ w.arrivals.count gate
  | .cancellation => w.isCancelled token
  | .pass _ _ => false

/-- By what a call that waits is woken; turns pass by themselves, and another pass wakes the call that
waits for it. -/
def signalOf (token : Token) : Await → Option Signal
  | .gate gate => some (.gate gate)
  | .arrivals gate _ => some (.gate gate)
  | .cancellation => some (.cancellation token)
  | _ => none

def await (w : World) (call : CallId) (token : Token) (await : Await) : World :=
  match signalOf token await with
  | some signal => w.setWaking (w.waking.await signal call)
  | none => w

def arriveAt (w : World) (gate : String) : World :=
  { w with arrivals := gate :: w.arrivals }.signal (.gate gate)

def tell (w : World) (p : PassId) (i : Nat) (handler : HandlerId) (note : Note) : World :=
  w.record (.noted p i handler note)

/-- An error that an action met with ends the call if it is to be propagated; every other answer is
told. -/
def afterAction (p : PassId) (i : Nat) (handler : HandlerId) (action : Action) (propagate : Bool) :
    World × Answer → World × Effect
  | (after, .failed error) =>
      if propagate then (after, .finish (.returned (some (.fail error))))
      else (after.tell p i handler (.did action.label (.failed error)), .goOn .ready)
  | (after, answer) => (after.tell p i handler (.did action.label answer), .goOn .ready)

def take (w : World) (p : PassId) (i : Nat) (pass : Pass) (handler : HandlerId) :
    Step → World × Effect
  | .say text => (w.tell p i handler (.said text), .goOn .ready)
  | .finish => (w, .finish (.returned none))
  | .linger 0 => (w, .goOn .ready)
  | .linger (n + 1) => (w, .giveWay n)
  | .waitFor gate => (w, .goOn (.gate gate))
  | .arrive gate expected => (w.arriveAt gate, .goOn (.arrivals gate expected))
  | .fail error => (w, .finish (.returned (some error)))
  | .failWithOccasion => (w, .finish (.returned (some (.failed pass.occasion.summary))))
  | .failBelow bound =>
      if pass.occasion.number < bound then
        (w, .finish (.returned (some (.failed (toString pass.occasion.number)))))
      else (w, .goOn .ready)
  | .failFor sender =>
      if pass.occasion.sender = some sender then
        (w, .finish (.returned (some (.failed ("unexpected sender " ++ sender)))))
      else (w, .goOn .ready)
  | .panic payload => (w, .finish (.panicked payload))
  | .checkToken =>
      if w.isCancelled pass.token then (w, .finish (.returned (some .canceled)))
      else (w, .goOn .ready)
  | .awaitToken => (w, .goOn .cancellation)
  | .cancelToken => (w.cancelToken pass.token, .goOn .ready)
  | .showToken => (w.tell p i handler (.token (w.isCancelled pass.token)), .goOn .ready)
  | .raise summons propagate =>
      match w.summon (some (⟨p, i⟩, pass)) summons with
      | .ok (q, started) => (started, .goOn (.pass q propagate))
      | .error refusal => (w.tell p i handler (.did "invoke" (.refused refusal)), .goOn .ready)
  | .act action propagate => afterAction p i handler action propagate (w.perform action)

end World
end Fanout
