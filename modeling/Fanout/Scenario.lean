import Fanout.Log
import Fanout.Machine
import Fanout.Trace

/-!
Scenarios: what the owner of a world asks of it, one request after another, and what is reported
after each: the reply, how many handlers each dispatcher has, the log and the traces of the
handlers.
-/
namespace Fanout

inductive Request
  | act (action : Action)
  | start (invocation : Option String) (summons : Summons)
  | poll (invocation : Option String)
  /-- Starts a pass and polls it; it is dropped if it is then still pending. -/
  | invoke (summons : Summons)
  | dropInvocation (invocation : Option String)
  /-- The same action on each member of a numbered family. -/
  | each (stem : Option String) (count : Nat) (action : Action)
  | parties (batches : List (List Action))
  deriving DecidableEq, Repr

inductive Reply
  | one (answer : Answer)
  | many (answers : List Answer)
  | batches (answers : List (List Answer))
  deriving DecidableEq, Repr

structure Report where
  reply : Reply
  counts : List (String × Nat)
  log : List String
  traces : Roster HandlerId (List Trace)
  deriving DecidableEq, Repr

namespace World

def performAll (w : World) : List Action → World × List Answer
  | [] => (w, [])
  | action :: actions =>
      let (after, answer) := w.perform action
      let (last, answers) := after.performAll actions
      (last, answer :: answers)

def performBatches (w : World) : List (List Action) → World × List (List Answer)
  | [] => (w, [])
  | batch :: batches =>
      let (after, answers) := w.performAll batch
      let (last, others) := after.performBatches batches
      (last, answers :: others)

structure Served where
  after : World
  reply : Reply
  order : LogOrder := .asMade
  deriving DecidableEq, Repr

def refuse (w : World) (refusal : Refusal) : Served := ⟨w, .one (.refused refusal), .asMade⟩

def servePoll (after : World) (first : Bool) (ending : Option Ending) : Served :=
  match ending with
  | some (.completed (some error)) => ⟨after, .one (.failed error), .sorted first true⟩
  | some ending => ⟨after, .one ending.answer, .sorted first false⟩
  | none => ⟨after, .one .pending, .sorted first false⟩

def startInvocation (w : World) (name : Option String) (summons : Summons) :
    Except Refusal World := do
  let name ← vacant w.invocations name
  let (p, started) ← w.summon none summons
  return { started with invocations := started.invocations.put name p }

def forgetInvocation (w : World) (name : String) : World :=
  { w with invocations := w.invocations.erase name }

/-- Does what is requested; there is no result if a poll takes more steps than it may. -/
def serve (fuel : Nat) (w : World) : Request → Option Served
  | .act action =>
      let (after, answer) := w.perform action
      some ⟨after, .one answer, .asMade⟩
  | .start name summons =>
      match w.startInvocation name summons with
      | .ok started => some ⟨started, .one .nothing, .asMade⟩
      | .error refusal => some (w.refuse refusal)
  | .poll name =>
      match lookUp w.invocations .noInv name with
      | .ok (name, p) =>
          match w.poll? fuel p with
          | some (polled, none) => some (polled.servePoll (w.isFresh p) none)
          | some (polled, some ending) =>
              some ((polled.forgetInvocation name).servePoll (w.isFresh p) (some ending))
          | none => none
      | .error refusal => some (w.refuse refusal)
  | .invoke summons =>
      match w.summon none summons with
      | .ok (p, started) =>
          match started.poll? fuel p with
          | some (polled, none) => some ((polled.abandon p .dropped).servePoll true none)
          | some (polled, some ending) => some (polled.servePoll true (some ending))
          | none => none
      | .error refusal => some (w.refuse refusal)
  | .dropInvocation name =>
      match lookUp w.invocations .noInv name with
      | .ok (name, p) =>
          some ⟨(w.abandon p .dropped).forgetInvocation name, .one .nothing, .asMade⟩
      | .error refusal => some (w.refuse refusal)
  | .each stem count action =>
      match need stem with
      | .ok stem =>
          let (after, answers) :=
            w.performAll ((List.range count).map fun i => action.forMember stem i)
          some ⟨after, .many answers, .asMade⟩
      | .error refusal => some (w.refuse refusal)
  | .parties batches =>
      let (after, answers) := w.performBatches batches
      some ⟨after, .batches answers, .silent⟩

def eventsSince (w earlier : World) : List Event :=
  (w.history.take (w.history.length - earlier.history.length)).reverse

/-- How many handlers each dispatcher has that the owner of the world holds. -/
def counts (w : World) : List (String × Nat) :=
  w.names.entries.map fun e => (e.1, (w.dispatcher e.2).handlerCount)

def isQuiet (w : World) (h : HandlerId) : Bool :=
  match w.handlers.find? h with
  | some handler => handler.quiet
  | none => false

/-- The traces of the handlers that are not quiet, each handler's in order. -/
def traces (w : World) (events : List Event) : Roster HandlerId (List Trace) :=
  events.foldl (fun traces event =>
    match event.trace? with
    | some (h, trace) =>
        if w.isQuiet h then traces else traces.put h ((traces.find? h).getD [] ++ [trace])
    | none => traces) {}

def report (earlier : World) (served : Served) : Report :=
  let after := served.after
  let events := after.eventsSince earlier
  let records := events.filterMap (Event.record? after.nameOf)
  ⟨served.reply, after.counts, served.order.arrange records, after.traces events⟩

def reports (fuel : Nat) (w : World) : List Request → List Report
  | [] => []
  | request :: requests =>
      match w.serve fuel request with
      | some served => w.report served :: served.after.reports fuel requests
      | none => []

end World

/-- A scenario: what events carry, what handlers are made after, and what is requested. -/
structure Scenario where
  arity : Arity
  blueprints : List Blueprint
  requests : List Request
  deriving DecidableEq, Repr

def Scenario.play (fuel : Nat) (scenario : Scenario) : List Report :=
  World.reports fuel { arity := scenario.arity, blueprints := scenario.blueprints }
    scenario.requests

end Fanout
