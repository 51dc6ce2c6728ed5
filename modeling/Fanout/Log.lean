import Fanout.Event

/-!
The log: one record for each event that somebody who watches the dispatchers should know of.
Handlers may be called in any order within a poll, so of the records of a poll only those keep
their place that the polled pass makes before its calls, if it is polled for the first time, and
after them, if it fails; the records between are sorted.
-/
namespace Fanout

inductive Level
  | trace
  | debug
  | warn
  deriving DecidableEq, Repr

def Level.label : Level → String
  | trace => "TRACE"
  | debug => "DEBUG"
  | warn => "WARN"

/-- One record of the log; its first field, the dispatcher's name, is common to all. -/
structure Record where
  level : Level
  message : String
  dispatcher : String
  fields : List (String × String)
  deriving DecidableEq, Repr

namespace Record

/-- The message of the record that a pass makes before its calls. -/
def dispatching : String := "dispatching event"

def render (record : Record) : String :=
  (("dispatcher", record.dispatcher) :: record.fields).foldl
    (fun text field => text ++ "|" ++ field.1 ++ "=" ++ field.2)
    (record.level.label ++ " " ++ record.message)

example : render ⟨.debug, "m", "d", [("a", "1"), ("b", "x|y")]⟩ =
    "DEBUG m|dispatcher=d|a=1|b=x|y" := by decide

def ofFlag (b : Bool) : String := if b then "true" else "false"

end Record

/-- What the log tells of an event, given the names of the dispatchers. -/
def Event.record? (nameOf : DispatcherId → String) : Event → Option Record
  | registered d handler generation => some ⟨.trace, "handler registered", nameOf d,
      [("key", handler), ("generation", toString generation.toNat)]⟩
  | subscribed d handler generation => some ⟨.trace, "handler subscribed", nameOf d,
      [("key", handler), ("generation", toString generation.toNat)]⟩
  | unregistered d handler removed => some ⟨.trace, "handler unregistered", nameOf d,
      [("key", handler), ("removed", Record.ofFlag removed)]⟩
  | purged d _ count => if count = 0 then none else
      some ⟨.debug, "evicted reclaimed handlers", nameOf d, [("purged", toString count)]⟩
  | opened _ d live _ => if live = [] then none else
      some ⟨.debug, Record.dispatching, nameOf d, [("handlers", toString live.length)]⟩
  | caught _ _ d name info => some ⟨.warn, "handler panicked", nameOf d,
      [("handler", name), ("info", info)]⟩
  | closed _ d (.completed (some (.handlersFailed total failures))) =>
      some ⟨.warn, "handler invocations failed", nameOf d,
        [("failed", toString failures.length), ("total", toString total)]⟩
  | _ => none

/-- How the records of a request are reported. -/
inductive LogOrder
  | asMade
  /-- Sorted but for the two ends: whether this was a first poll, and whether the pass failed. -/
  | sorted (first failed : Bool)
  | silent
  deriving DecidableEq, Repr

namespace LogOrder

/-- The records up to the one that a pass makes before its calls, and the others; all are others if
there is no such record. -/
def splitFront (records : List Record) : List Record × List Record :=
  match records.findIdx? fun record => record.message = Record.dispatching with
  | some i => records.splitAt (i + 1)
  | none => ([], records)

def sortTexts (texts : List String) : List String := texts.mergeSort fun a b => decide (a ≤ b)

/-- The texts of the records in the order in which they are reported. -/
def arrange (records : List Record) : LogOrder → List String
  | asMade => records.map Record.render
  | silent => []
  | sorted first failed =>
      let (front, others) := if first then splitFront records else ([], records)
      let back := if failed then 1 else 0
      let (middle, last) := others.splitAt (others.length - back)
      front.map Record.render ++ sortTexts (middle.map Record.render) ++ last.map Record.render

end LogOrder

end Fanout
