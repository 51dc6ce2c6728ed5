import Fanout.Registry
import Fanout.Script

/-!
Handlers as they lie in memory. A handler is kept alive by strong references, of which its owner
holds some and unfinished calls hold the others; the count alone decides whether it lives. Its
behaviour comes from a blueprint.
-/
namespace Fanout
open Text

inductive Naming
  | fixed (name : String)
  | free (name : String)
  /-- No name: the question panics. -/
  | faulty (payload : Payload)
  deriving DecidableEq, Repr

namespace Naming

def read : Naming → Except Payload String
  | fixed name => .ok name
  | free name => .ok name
  | faulty payload => .error payload

def rename (name : String) : Naming → Naming
  | free _ => free name
  | naming => naming

end Naming

inductive Make
  | function (name : Option String)
  /-- As a type of its own; if there is something to panic with, its name panics. -/
  | custom (name : Option String) (panic : Option Payload)
  | ofType (typeName : String)
  deriving DecidableEq, Repr

/-- The naming of a handler made like this; its own name is the one that its owner calls it by,
where none is given. -/
def Make.naming (handler : HandlerId) : Make → Naming
  | function name => .fixed (name.getD handler)
  | custom _ (some payload) => .faulty payload
  | custom name none => .free (name.getD handler)
  | ofType typeName => .fixed typeName

structure Blueprint where
  make : Make := .function none
  scripts : List Script := []
  /-- A quiet handler leaves no traces. -/
  quiet : Bool := false
  deriving DecidableEq, Repr

structure Handler where
  address : Nat
  strong : Nat := 1
  /-- How many of them its owner holds. -/
  owned : Nat := 1
  /-- Its owner also holds a weak handle to it. -/
  watched : Bool := true
  begun : Nat := 0
  naming : Naming
  scripts : List Script
  quiet : Bool
  deriving DecidableEq, Repr

namespace Handler

def ofBlueprint (handler : HandlerId) (address : Nat) (blueprint : Blueprint) : Handler :=
  { address, naming := blueprint.make.naming handler, scripts := blueprint.scripts,
    quiet := blueprint.quiet }

def alive (handler : Handler) : Bool := 0 < handler.strong

def key (handler : Handler) : Key := .place handler.address

/-- The script of a call: each call has its own, and from the last one on it is always the same. -/
def script (handler : Handler) (number : Nat) : Script :=
  handler.scripts.getD (min number (handler.scripts.length - 1)) []

end Handler

/-- What a function-backed handler can be made around, as far as it can be shown. -/
inductive Body
  | text (text : String)
  | number (n : Int)
  | texts (texts : List String)
  | empty
  deriving DecidableEq, Repr

def Body.shape : Body → Shape
  | .text s => .quoted s
  | .number n => .word (toString n)
  | .texts ss => .items (ss.map .quoted)
  | .empty => .word "()"

def Body.handlerShape (name : String) (body : Body) : Shape :=
  .record "HandlerFn" [("name", .quoted name), ("f", body.shape)]

end Fanout
