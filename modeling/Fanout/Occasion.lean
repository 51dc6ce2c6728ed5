/-!
What an event carries to its handlers, and the tokens that tell them to give up. An event carries
nothing, a number, or a number and a sender; its token is one that somebody holds by name, or one
of its own.
-/
namespace Fanout

/-- Passes are numbered in the order in which they were started. -/
abbrev PassId := Nat

/-- A call goes by its pass and its position in it. -/
structure CallId where
  pass : PassId
  position : Nat
  deriving DecidableEq, Repr

/-- What the events of a world carry. -/
inductive Arity
  | simple
  | args
  | sender
  deriving DecidableEq, Repr

/-- What one event carries to each of its handlers. -/
structure Occasion where
  sender : Option String := none
  args : Option Int := none
  deriving DecidableEq, Repr

/-- Keeps of a sender and a number what events of this arity carry. -/
def Arity.occasion (arity : Arity) (sender : String) (args : Int) : Occasion :=
  match arity with
  | .simple => {}
  | .args => { args := some args }
  | .sender => { sender := some sender, args := some args }

namespace Occasion

/-- Sender and number in one text, a dash for what is not carried. -/
def summary (occasion : Occasion) : String :=
  occasion.sender.getD "-" ++ ":" ++ (occasion.args.map toString).getD "-"

def number (occasion : Occasion) : Int := occasion.args.getD 0

end Occasion

inductive Token
  | named (id : String)
  /-- The token of a pass that was given none. -/
  | own (pass : PassId)
  deriving DecidableEq, Repr

end Fanout
