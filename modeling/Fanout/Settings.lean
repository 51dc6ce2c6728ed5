import Fanout.Permits
import Fanout.Text.Shape

/-!
The settings of a dispatcher, and the ways to come by them: the usual ones, given ones, or a chain
of changes to either.
-/
namespace Fanout
open Text

structure Settings where
  name : String := "event"
  /-- How many calls of one pass may run at once; 0 stands for any number. -/
  maxConcurrent : Nat := 0
  /-- A panic of a handler becomes a failure, and does not leave the pass. -/
  isolatePanics : Bool := true
  deriving DecidableEq, Repr

namespace Settings

def limit (settings : Settings) : Option Nat :=
  if settings.maxConcurrent = 0 then none else some settings.maxConcurrent

/-- The permits that a pass starts with; none where it needs none. -/
def permits (settings : Settings) : Option Permits := settings.limit.map Permits.ofLimit

def shape (settings : Settings) : Shape :=
  .record "DispatcherConfig"
    [("name", .quoted settings.name), ("max_concurrent", .ofNat settings.maxConcurrent),
      ("isolate_panics", .ofBool settings.isolatePanics)]

/-- The shape of a dispatcher that is still being put together. -/
def draftShape (settings : Settings) : Shape :=
  .record "DispatcherBuilder" [("cfg", settings.shape)]

inductive Change
  | name (name : String)
  | maxConcurrent (limit : Nat)
  | isolatePanics (isolate : Bool)
  deriving DecidableEq, Repr

def change (settings : Settings) : Change → Settings
  | .name name => { settings with name }
  | .maxConcurrent limit => { settings with maxConcurrent := limit }
  | .isolatePanics isolate => { settings with isolatePanics := isolate }

/-- The settings after a chain of changes, of which the last one of a kind wins. -/
def changeAll (settings : Settings) (changes : List Change) : Settings :=
  changes.foldl change settings

inductive Source
  | usual
  | given (settings : Settings)
  | built (changes : List Change)
  | builtFrom (settings : Settings) (changes : List Change)
  deriving DecidableEq, Repr

def ofSource : Source → Settings
  | .usual => {}
  | .given settings => settings
  | .built changes => changeAll {} changes
  | .builtFrom settings changes => settings.changeAll changes

end Settings
end Fanout
