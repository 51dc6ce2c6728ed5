import Fanout.Failure
import Fanout.Settings

/-!
What the world answers to an action, an event or anything else that it is asked.
-/
namespace Fanout

/-- Why the world does not do what it is asked. -/
inductive Refusal
  | badOp
  | taken
  | noDispatcher
  | noHandler
  /-- There is such a handler, but its owner holds no strong reference to it. -/
  | noStrong
  | noSub
  | noInv
  | noToken
  deriving DecidableEq, Repr

def Refusal.label : Refusal → String
  | badOp => "bad_op"
  | taken => "exists"
  | noDispatcher => "no_dispatcher"
  | noHandler => "no_handler"
  | noStrong => "no_strong"
  | noSub => "no_sub"
  | noInv => "no_inv"
  | noToken => "no_token"

inductive Answer
  | nothing
  | done
  | pending
  | refused (refusal : Refusal)
  | failed (error : DispatchError)
  | panicked (text : Option String)
  | flag (b : Bool)
  | number (n : Nat)
  | text (s : String)
  | settings (settings : Settings)
  | census (count : Nat) (empty : Bool)
  | guardState (active : Bool) (inline pretty : String)
  | portrait (settings : Settings) (inline pretty : String)
  | tally (begun returned running : Nat)
  deriving DecidableEq, Repr

def Answer.ofExcept {α : Type} (answer : α → Answer) : Except DispatchError α → Answer
  | .ok x => answer x
  | .error error => .failed error

end Fanout
