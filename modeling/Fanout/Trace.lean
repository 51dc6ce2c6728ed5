import Fanout.Event

/-!
The traces that handlers leave: when their calls begin and end, what they tell in between, and
that they were reclaimed.
-/
namespace Fanout

inductive Trace
  | call (number : Nat) (occasion : Occasion) (cancelled : Bool)
  | note (note : Note)
  | ended (error : Option CallError)
  | cut
  | reclaimed
  deriving DecidableEq, Repr

/-- Whose trace shows the event, and how. -/
def Event.trace? : Event → Option (HandlerId × Trace)
  | began _ _ handler number occasion cancelled => some (handler, .call number occasion cancelled)
  | noted _ _ handler note => some (handler, .note note)
  | returned _ _ handler error => some (handler, .ended error)
  | cut _ _ handler => some (handler, .cut)
  | reclaimed handler => some (handler, .reclaimed)
  | _ => none

end Fanout
