import Fanout.Registry
import Fanout.Settings

/-!
Dispatchers and the guards of their registrations. A guard knows whose registry it belongs to
until it has let go, and of its registration the key and the generation, but keeps neither
dispatcher nor handler alive.
-/
namespace Fanout
open Text

/-- Dispatchers are numbered in the order in which they were made. -/
abbrev DispatcherId := Nat

structure Dispatcher where
  settings : Settings := {}
  registry : Registry := {}
  deriving DecidableEq, Repr

namespace Dispatcher

/-- The number of entries, of living and of dead handlers. -/
def handlerCount (dispatcher : Dispatcher) : Nat := dispatcher.registry.size

def isEmpty (dispatcher : Dispatcher) : Bool := dispatcher.handlerCount = 0

def shape (dispatcher : Dispatcher) : Shape :=
  .record "Dispatcher"
    [("name", .quoted dispatcher.settings.name), ("handlers", .ofNat dispatcher.handlerCount)]

end Dispatcher

structure Guard where
  /-- The dispatcher of the registration; none once the guard has let go. -/
  dispatcher : Option DispatcherId
  key : Key
  generation : UInt64
  deriving DecidableEq, Repr

def Guard.shape (guard : Guard) (active : Bool) : Shape :=
  .record "Subscription"
    [("generation", .ofNat guard.generation.toNat), ("active", .ofBool active)]

end Fanout
