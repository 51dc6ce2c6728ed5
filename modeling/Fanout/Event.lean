import Fanout.Answer
import Fanout.Dispatcher
import Fanout.Handler

/-!
What happens in a world, from the registration of a handler to its end. Readers are given two
views of it, the log and the traces of the handlers; some of it neither view shows.
-/
namespace Fanout

inductive Ending
  | completed (error : Option DispatchError)
  | panicked (payload : Payload)
  | dropped
  deriving DecidableEq, Repr

def Ending.answer : Ending → Answer
  | completed none => .done
  | completed (some error) => .failed error
  | panicked payload => .panicked payload.text?
  | dropped => .nothing

/-- What a handler tells in the middle of a call. -/
inductive Note
  | said (text : String)
  | token (cancelled : Bool)
  | did (label : String) (answer : Answer)
  deriving DecidableEq, Repr

inductive Event
  | registered (dispatcher : DispatcherId) (handler : HandlerId) (generation : UInt64)
  | subscribed (dispatcher : DispatcherId) (handler : HandlerId) (generation : UInt64)
  | unregistered (dispatcher : DispatcherId) (handler : HandlerId) (removed : Bool)
  /-- A guard let go of its registration, and removed the entry if it still stood. -/
  | released (dispatcher : DispatcherId) (key : Key) (generation : UInt64) (removed : Bool)
  | purged (dispatcher : DispatcherId) (pass : Option PassId) (count : Nat)
  /-- A pass was polled for the first time, and found these handlers alive. -/
  | opened (pass : PassId) (dispatcher : DispatcherId) (live : List HandlerId) (dead : Nat)
  | began (pass : PassId) (call : Nat) (handler : HandlerId) (number : Nat) (occasion : Occasion)
      (cancelled : Bool)
  | noted (pass : PassId) (call : Nat) (handler : HandlerId) (note : Note)
  | returned (pass : PassId) (call : Nat) (handler : HandlerId) (error : Option CallError)
  /-- A call that had begun was ended by a panic, or with its pass. -/
  | cut (pass : PassId) (call : Nat) (handler : HandlerId)
  | caught (pass : PassId) (call : Nat) (dispatcher : DispatcherId) (name info : String)
  | closed (pass : PassId) (dispatcher : DispatcherId) (ending : Ending)
  | reclaimed (handler : HandlerId)
  deriving DecidableEq, Repr

end Fanout
