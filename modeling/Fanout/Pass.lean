import Fanout.Event

/-!
Passes: the life of one event. A pass is fresh until it is polled for the first time; then it
holds one call for each handler that its dispatcher's registry showed alive, and it is closed when
they are all over, or when it is given up. A pass that a handler waits for is descended from the
pass that called this handler.
-/
namespace Fanout

inductive Await
  | ready
  | turns (n : Nat)
  | gate (gate : String)
  | arrivals (gate : String) (expected : Nat)
  | cancellation
  /-- The end of another pass, whose error ends the call if it is to be propagated. -/
  | pass (pass : PassId) (propagate : Bool)
  deriving DecidableEq, Repr

inductive Verdict
  | returned (error : Option CallError)
  | panicked (payload : Payload)
  deriving DecidableEq, Repr

inductive Status
  | idle
  | queued
  /-- It was handed a permit, but was not polled since. -/
  | granted
  | running (number : Nat) (await : Await) (rest : Script)
  | finished (error : Option CallError)
  | abandoned
  deriving DecidableEq, Repr

namespace Status

def isRunning : Status → Bool
  | running _ _ _ => true
  | _ => false

/-- An unfinished call holds a strong reference to its handler. -/
def isUnfinished : Status → Bool
  | finished _ => false
  | abandoned => false
  | _ => true

theorem isUnfinished_of_isRunning {status : Status} (h : status.isRunning = true) :
    status.isUnfinished = true := by
  cases status <;> simp_all [isRunning, isUnfinished]

end Status

structure Call where
  handler : HandlerId
  /-- What the handler called itself before the first call of the pass. -/
  name : String
  status : Status := .idle
  deriving DecidableEq, Repr

/-- What the call adds to the failures of its pass. -/
def Call.failure? (call : Call) : Option Failure :=
  match call.status with
  | .finished (some error) => some ⟨call.name, error⟩
  | _ => none

inductive Phase
  | fresh
  | running
  | closed (ending : Ending)
  deriving DecidableEq, Repr

def Phase.isOpen : Phase → Bool
  | closed _ => false
  | _ => true

structure Pass where
  dispatcher : DispatcherId
  token : Token
  occasion : Occasion
  /-- The call that waits for this pass, the call that waits for the pass of that one, and so on
  outwards. -/
  lineage : List CallId := []
  phase : Phase := .fresh
  calls : List Call := []
  /-- None where any number of calls may run at once. -/
  permits : Option Permits := none
  deriving DecidableEq, Repr

namespace Pass

def unfinished (pass : Pass) : List Nat :=
  (List.range pass.calls.length).filter fun i =>
    match pass.calls[i]? with
    | some call => call.status.isUnfinished
    | none => false

/-- A pass of more calls than this is crowded. -/
def crowd : Nat := 30

/-- A crowded pass polls only those of its calls that were woken; any other pass polls all that are
not over. -/
def isCrowded (pass : Pass) : Bool := crowd < pass.calls.length

def isOver (pass : Pass) : Bool := pass.calls.all fun call => !call.status.isUnfinished

def failures (pass : Pass) : List Failure := pass.calls.filterMap Call.failure?

/-- What a pass reports when its calls are over. -/
def error? (pass : Pass) : Option DispatchError :=
  if pass.failures = [] then none else some (.handlersFailed pass.calls.length pass.failures)

def setCall (pass : Pass) (i : Nat) (status : Status) : Pass :=
  { pass with calls := pass.calls.modify i fun call => { call with status } }

end Pass
end Fanout
