import Fanout.Failure
import Fanout.Occasion
import Fanout.Settings

/-!
What handlers do. A handler follows a script of steps, and a step is either its own affair (say
something, wait, fail, panic, look at its token), an action on the world it lives in, or an event
of its own. Actions are also what the owner of the world does; they name what they act on, and a
name that is missing is part of the action, so that the world can refuse it.
-/
namespace Fanout

/-- A weak handle that somebody shows. -/
inductive Handle
  | empty
  | of (handler : String)
  deriving DecidableEq, Repr, Inhabited

/-- What can be done to a world at once, without a handler being called. -/
inductive Action
  | createDispatcher (dispatcher : Option String) (source : Settings.Source)
  | dropDispatcher (dispatcher : Option String)
  /-- Makes a handler after a blueprint, at an address if one is wished for. -/
  | createHandler (handler : Option String) (blueprint : Nat) (address : Option Nat)
  | clone (handler : Option String)
  | drop (handler : Option String)
  | forget (handler : Option String)
  | alive (handle : Option Handle)
  | handlerName (handler : Option String)
  | rename (handler : Option String) (name : Option String)
  | register (dispatcher handler : Option String)
  | registerWeak (dispatcher : Option String) (handle : Option Handle)
  | unregister (dispatcher handler : Option String)
  | unregisterWeak (dispatcher : Option String) (handle : Option Handle)
  | subscribe (guard dispatcher handler : Option String)
  | unsubscribe (guard : Option String)
  | dropGuard (guard : Option String)
  | guardState (guard : Option String)
  | count (dispatcher : Option String)
  | purge (dispatcher : Option String)
  | describe (dispatcher : Option String)
  | createToken (token : Option String)
  | cancel (token : Option String)
  | cancelled (token : Option String)
  | openGate (gate : Option String)
  | closeGate (gate : Option String)
  | stats
  | peak
  | unknown (label : String)
  deriving DecidableEq, Repr, Inhabited

namespace Action

/-- The word under which a handler tells that it did this. -/
def label : Action → String
  | createDispatcher _ _ => "dispatcher"
  | dropDispatcher _ => "drop_dispatcher"
  | createHandler _ _ _ => "handler"
  | clone _ => "clone"
  | drop _ => "drop"
  | forget _ => "forget"
  | alive _ => "alive"
  | handlerName _ => "handler_name"
  | rename _ _ => "rename"
  | register _ _ => "register"
  | registerWeak _ _ => "register_weak"
  | unregister _ _ => "unregister"
  | unregisterWeak _ _ => "unregister_weak"
  | subscribe _ _ _ => "subscribe"
  | unsubscribe _ => "unsubscribe"
  | dropGuard _ => "drop_sub"
  | guardState _ => "sub_state"
  | count _ => "count"
  | purge _ => "purge"
  | describe _ => "describe"
  | createToken _ => "token"
  | cancel _ => "cancel"
  | cancelled _ => "cancelled"
  | openGate _ => "open"
  | closeGate _ => "close"
  | stats => "stats"
  | peak => "peak"
  | unknown label => label

/-- The same action on the member of a numbered family: its handler is the member, and a guard gets
the member's number behind its name. -/
def forMember (stem : String) (i : Nat) : Action → Action
  | createHandler _ blueprint address => createHandler (stem ++ toString i) blueprint address
  | clone _ => clone (stem ++ toString i)
  | drop _ => drop (stem ++ toString i)
  | forget _ => forget (stem ++ toString i)
  | alive _ => alive (some (.of (stem ++ toString i)))
  | handlerName _ => handlerName (stem ++ toString i)
  | rename _ name => rename (stem ++ toString i) name
  | register dispatcher _ => register dispatcher (stem ++ toString i)
  | registerWeak dispatcher _ => registerWeak dispatcher (some (.of (stem ++ toString i)))
  | unregister dispatcher _ => unregister dispatcher (stem ++ toString i)
  | unregisterWeak dispatcher _ => unregisterWeak dispatcher (some (.of (stem ++ toString i)))
  | subscribe guard dispatcher _ =>
      subscribe (guard.map (· ++ toString i)) dispatcher (stem ++ toString i)
  | unsubscribe guard => unsubscribe (guard.map (· ++ toString i))
  | dropGuard guard => dropGuard (guard.map (· ++ toString i))
  | guardState guard => guardState (guard.map (· ++ toString i))
  | action => action

end Action

inductive TokenChoice
  | fresh
  | callers
  | named (id : String)
  deriving DecidableEq, Repr, Inhabited

/-- What is asked of an event: where, with which token, and what it should carry. A token that
cannot be told is no choice. -/
structure Summons where
  dispatcher : Option String
  token : Option TokenChoice := some .fresh
  args : Int := 0
  sender : String := ""
  deriving DecidableEq, Repr, Inhabited

inductive Step
  | say (text : String)
  | finish
  /-- Lets the others go first, so many times. -/
  | linger (times : Nat)
  | waitFor (gate : String)
  /-- Arrives at a gate, and waits until so many have arrived. -/
  | arrive (gate : String) (expected : Nat)
  | fail (error : CallError)
  | failWithOccasion
  | failBelow (bound : Int)
  | failFor (sender : String)
  | panic (payload : Payload)
  /-- Gives up if the token is cancelled. -/
  | checkToken
  | awaitToken
  | cancelToken
  | showToken
  | raise (summons : Summons) (propagate : Bool)
  | act (action : Action) (propagate : Bool)
  deriving DecidableEq, Repr, Inhabited

abbrev Script := List Step

end Fanout
