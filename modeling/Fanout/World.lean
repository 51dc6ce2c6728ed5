import Fanout.Pass
import Fanout.Waking

/-!
The world in which events happen: handlers in memory, dispatchers with their guards, tokens,
gates, and the passes of all events so far. Dispatchers and passes are never taken out of their
lists, so their numbers stay good; a dispatcher that nobody keeps any more is out of reach.
-/
namespace Fanout

/-- Counts over all calls of handlers so far. -/
structure Tally where
  begun : Nat := 0
  /-- Those that returned, with or without an error. -/
  returned : Nat := 0
  running : Nat := 0
  peak : Nat := 0
  deriving DecidableEq, Repr

namespace Tally

def began (tally : Tally) : Tally :=
  { tally with
    begun := tally.begun + 1, running := tally.running + 1,
    peak := max tally.peak (tally.running + 1) }

def returnedOne (tally : Tally) : Tally :=
  { tally with returned := tally.returned + 1, running := tally.running - 1 }

def cutOne (tally : Tally) : Tally := { tally with running := tally.running - 1 }

end Tally

structure World where
  arity : Arity
  blueprints : List Blueprint := []
  handlers : Roster HandlerId Handler := {}
  dispatchers : List Dispatcher := []
  /-- The dispatchers that the owner of the world holds. -/
  names : Roster String DispatcherId := {}
  guards : Roster String Guard := {}
  tokens : List String := []
  cancelled : List Token := []
  openGates : List String := []
  /-- The gates at which somebody arrived, once for each arrival. -/
  arrivals : List String := []
  passes : List Pass := []
  waking : Waking := {}
  /-- The passes that the owner of the world waits for. -/
  invocations : Roster String PassId := {}
  tally : Tally := {}
  /-- What happened, the latest first. -/
  history : List Event := []
  deriving DecidableEq, Repr

namespace World

def record (w : World) (event : Event) : World := { w with history := event :: w.history }

def setTally (w : World) (tally : Tally) : World := { w with tally }

def alive (w : World) (h : HandlerId) : Bool :=
  match w.handlers.find? h with
  | some handler => handler.alive
  | none => false

/-- The key of a handler; a handler that was never made lies nowhere. -/
def keyOf (w : World) (h : HandlerId) : Key :=
  match w.handlers.find? h with
  | some handler => handler.key
  | none => .nowhere

def modifyHandler (w : World) (h : HandlerId) (f : Handler → Handler) : World :=
  { w with handlers := w.handlers.modify h f }

def retain (w : World) (h : HandlerId) : World :=
  w.modifyHandler h fun handler => { handler with strong := handler.strong + 1 }

def letGo (w : World) (h : HandlerId) : World :=
  w.modifyHandler h fun handler => { handler with strong := handler.strong - 1 }

/-- Gives a strong reference back; with the last one the handler is reclaimed. -/
def release (w : World) (h : HandlerId) : World :=
  if w.alive h && !(w.letGo h).alive h then (w.letGo h).record (.reclaimed h) else w.letGo h

def retainAll (w : World) (handlers : List HandlerId) : World := handlers.foldl retain w

def releaseAll (w : World) (handlers : List HandlerId) : World := handlers.foldl release w

theorem passes_release (w : World) (h : HandlerId) : (w.release h).passes = w.passes := by
  unfold release
  split <;> rfl

theorem passes_releaseAll (w : World) (handlers : List HandlerId) :
    (w.releaseAll handlers).passes = w.passes := by
  induction handlers generalizing w with
  | nil => rfl
  | cons h hs ih => exact (ih (w.release h)).trans (passes_release w h)

theorem passes_retainAll (w : World) (handlers : List HandlerId) :
    (w.retainAll handlers).passes = w.passes := by
  induction handlers generalizing w with
  | nil => rfl
  | cons h hs ih => exact ih (w.retain h)

/-- A dispatcher by its number; one that was never made is empty. -/
def dispatcher (w : World) (d : DispatcherId) : Dispatcher := (w.dispatchers[d]?).getD {}

def settings (w : World) (d : DispatcherId) : Settings := (w.dispatcher d).settings

def nameOf (w : World) (d : DispatcherId) : String := (w.settings d).name

def registry (w : World) (d : DispatcherId) : Registry := (w.dispatcher d).registry

def setRegistry (w : World) (d : DispatcherId) (registry : Registry) : World :=
  { w with dispatchers := w.dispatchers.modify d fun dispatcher => { dispatcher with registry } }

/-- The same world, in which a registry is gone through in this order. -/
def arrange (w : World) (d : DispatcherId) (order : List (Key × Registration)) : World :=
  w.setRegistry d { w.registry d with entries := ⟨order⟩ }

/-- A registry keeps its entries in no order, so that at any time they may come to lie in another. -/
def reorder (w : World) (d : DispatcherId) (order : List (Key × Registration)) : World :=
  if order.Perm (w.registry d).entries.entries then w.arrange d order else w

/-- The dispatcher is held by the owner of the world, or by a pass that is not closed. -/
def keeps (w : World) (d : DispatcherId) : Bool :=
  w.names.entries.any (fun e => e.2 = d) ||
    w.passes.any fun pass => pass.phase.isOpen && pass.dispatcher = d

/-- The registration that the guard stands for is still there. -/
def isActive (w : World) (guard : Guard) : Bool :=
  match guard.dispatcher with
  | some d => w.keeps d && (w.registry d).holds guard.key guard.generation
  | none => false

/-- The handler's place in memory is not free: it lives, or somebody has a weak handle to it, the
entry of a registry included. -/
def isReserved (w : World) (h : HandlerId) (handler : Handler) : Bool :=
  handler.alive || handler.watched ||
    (List.range w.dispatchers.length).any fun d =>
      w.keeps d && (w.registry d).entries.entries.any fun e => e.2.handler = h

def isOccupied (w : World) (address : Nat) : Bool :=
  w.handlers.entries.any fun e => e.2.address = address && w.isReserved e.1 e.2

/-- An address where no handler has ever been. -/
def freshAddress (w : World) : Nat :=
  w.handlers.entries.foldl (fun address e => max address (e.2.address + 1)) 1

/-- Where a new handler is put: at the address wished for, unless it is occupied. -/
def addressFor (w : World) (wish : Option Nat) : Nat :=
  match wish with
  | some address => if w.isOccupied address then w.freshAddress else address
  | none => w.freshAddress

def modifyPass (w : World) (p : PassId) (f : Pass → Pass) : World :=
  { w with passes := w.passes.modify p f }

def isFresh (w : World) (p : PassId) : Bool :=
  match w.passes[p]? with
  | some pass => pass.phase = .fresh
  | none => false

def call? (w : World) (p : PassId) (i : Nat) : Option Call :=
  match w.passes[p]? with
  | some pass => pass.calls[i]?
  | none => none

def setStatus (w : World) (p : PassId) (i : Nat) (status : Status) : World :=
  w.modifyPass p fun pass => pass.setCall i status

def start (w : World) (d : DispatcherId) (token : Option Token) (sender : String) (args : Int)
    (lineage : List CallId) : PassId × World :=
  let p := w.passes.length
  let pass : Pass :=
    { dispatcher := d, token := token.getD (.own p), occasion := w.arity.occasion sender args,
      lineage }
  (p, { w with passes := w.passes ++ [pass] })

/-- Closes a pass in one of the ways in which it can end. -/
def close (w : World) (p : PassId) (ending : Ending) : World :=
  match w.passes[p]? with
  | some pass =>
      (w.modifyPass p fun pass => { pass with phase := .closed ending }).record
        (.closed p pass.dispatcher ending)
  | none => w

/-- A running call ends without returning. -/
def cutCall (w : World) (p : PassId) (i : Nat) (handler : HandlerId) : World :=
  (w.setTally w.tally.cutOne).record (.cut p i handler)

/-- Gives up one call: it is cut if it was running, and lets its handler go. -/
def abandonCall (w : World) (p : PassId) (i : Nat) : World :=
  match w.call? p i with
  | some call =>
      if call.status.isRunning then
        ((w.cutCall p i call.handler).setStatus p i .abandoned).release call.handler
      else if call.status.isUnfinished then
        (w.setStatus p i .abandoned).release call.handler
      else w
  | none => w

def abandonCalls (w : World) (p : PassId) (pass : Pass) : World :=
  (List.range pass.calls.length).foldl (fun w i => w.abandonCall p i) w

/-- Gives up one pass with all its calls, if it is not closed yet. -/
def abandonPass (w : World) (p : PassId) (ending : Ending) : World :=
  match w.passes[p]? with
  | some pass =>
      if pass.phase.isOpen then (w.abandonCalls p pass).close p ending else w
  | none => w

/-- The passes that handlers of this one wait for, directly or through others. -/
def descendants (w : World) (p : PassId) : List PassId :=
  (List.range w.passes.length).filter fun q =>
    match w.passes[q]? with
    | some pass => pass.lineage.any fun call => call.pass = p
    | none => false

/-- Gives up a pass and everything that it waits for, which is dropped. -/
def abandon (w : World) (p : PassId) (ending : Ending) : World :=
  ((w.descendants p).foldl (fun w q => w.abandonPass q .dropped) w).abandonPass p ending

end World
end Fanout
