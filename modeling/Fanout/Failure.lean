import Fanout.Text.Shape

/-!
What goes wrong, and how it is told. One call of a handler ends with a `CallError`, into which
also its panic is turned if it is caught; a pass gathers them, each under its handler's name, into
one `DispatchError`, which is also what a weak handle without a handler is refused with. An error
has four texts: a sentence for a reader (`display`), a stable word for a log (`label`), a line
with details (`message`), and its shape.
-/
namespace Fanout
open Text

/-- What a panic carries: a fixed text, a text made up on the spot, or something else. -/
inductive Payload
  | fixed (text : String)
  | composed (text : String)
  | other
  deriving DecidableEq, Repr

namespace Payload

def text? : Payload → Option String
  | fixed text => some text
  | composed text => some text
  | other => none

/-- How a failure tells of the panic. -/
def info (payload : Payload) : String := payload.text?.getD "non-string panic payload"

end Payload

inductive CallError
  | failed (error : String)
  | panicked (info : String)
  | canceled
  deriving DecidableEq, Repr, Inhabited

namespace CallError

/-- The failure that carries the text of whatever caused it. -/
def fail {α : Type} [ToString α] (cause : α) : CallError := failed (toString cause)

def display : CallError → String
  | failed error => "handler failed: " ++ error
  | panicked info => "handler panicked: " ++ info
  | canceled => "handler cancelled"

instance : ToString CallError := ⟨display⟩

def label : CallError → String
  | failed _ => "handler_failed"
  | panicked _ => "handler_panicked"
  | canceled => "handler_canceled"

def message : CallError → String
  | failed error => "error: " ++ error
  | panicked info => "panic: " ++ info
  | canceled => "cancelled"

def shape : CallError → Shape
  | failed error => .record "Failed" [("error", .quoted error)]
  | panicked info => .record "Panicked" [("info", .quoted info)]
  | canceled => .word "Canceled"

end CallError

/-- One call that went wrong, under the name that its handler reported. -/
structure Failure where
  handler : String
  error : CallError
  deriving DecidableEq, Repr, Inhabited

namespace Failure

def display (failure : Failure) : String :=
  "handler '" ++ failure.handler ++ "' failed: " ++ failure.error.display

instance : ToString Failure := ⟨display⟩

def shape (failure : Failure) : Shape :=
  .record "HandlerFailure" [("handler", .quoted failure.handler), ("error", failure.error.shape)]

/-- What failures are sorted by, where their own order means nothing: name, label, message. -/
def rank (failure : Failure) : List String :=
  [failure.handler, failure.error.label, failure.error.message]

def sorted (failures : List Failure) : List Failure :=
  failures.mergeSort fun a b => !decide (b.rank < a.rank)

theorem sorted_perm (failures : List Failure) : (sorted failures).Perm failures :=
  List.mergeSort_perm failures _

theorem length_sorted (failures : List Failure) : (sorted failures).length = failures.length :=
  (sorted_perm failures).length_eq

end Failure

inductive DispatchError
  /-- The handle that was given cannot be used. -/
  | invalidArgument (reason : String)
  | handlersFailed (total : Nat) (failures : List Failure)
  deriving DecidableEq, Repr, Inhabited

namespace DispatchError

/-- What a weak handle is refused with when it has no living handler. -/
def emptyHandle : DispatchError :=
  invalidArgument "handle is empty or its handler was already reclaimed"

def failures : DispatchError → List Failure
  | invalidArgument _ => []
  | handlersFailed _ failures => failures

def display : DispatchError → String
  | invalidArgument reason => "invalid handler: " ++ reason
  | handlersFailed total failures =>
      toString failures.length ++ " of " ++ toString total ++ " handler(s) failed"

instance : ToString DispatchError := ⟨display⟩

def label : DispatchError → String
  | invalidArgument _ => "dispatch_invalid_argument"
  | handlersFailed _ _ => "dispatch_handlers_failed"

def message : DispatchError → String
  | invalidArgument reason => "invalid argument: " ++ reason
  | handlersFailed total failures =>
      toString failures.length ++ " of " ++ toString total ++ " handlers failed: " ++
        (Shape.items (failures.map fun f => .quoted f.handler)).inline

def shape : DispatchError → Shape
  | invalidArgument reason => .record "InvalidArgument" [("reason", .quoted reason)]
  | handlersFailed total failures =>
      .record "HandlersFailed"
        [("total", .ofNat total), ("failures", .items (failures.map Failure.shape))]

/-- The same error with its failures sorted. -/
def arranged : DispatchError → DispatchError
  | invalidArgument reason => invalidArgument reason
  | handlersFailed total failures => handlersFailed total (Failure.sorted failures)

theorem display_arranged (e : DispatchError) : e.arranged.display = e.display := by
  cases e with
  | invalidArgument reason => rfl
  | handlersFailed total failures =>
    show toString (Failure.sorted failures).length ++ " of " ++ toString total ++
        " handler(s) failed" =
      toString failures.length ++ " of " ++ toString total ++ " handler(s) failed"
    rw [Failure.length_sorted]

end DispatchError
end Fanout
