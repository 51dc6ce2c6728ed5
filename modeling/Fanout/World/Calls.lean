import Fanout.World.Perform

/-!
The life of a pass and of its calls. A pass opens with a snapshot of its dispatcher's registry,
whose handlers it holds until their calls are over, and asks every one of them for its name before
it calls any. A call that is over lets its handler go, and gives its permit to the next that waits
for one, which it wakes.
-/
namespace Fanout.World

/-- The handlers' names in order, or what the first question panicked with. -/
def readNames (w : World) : List HandlerId → Except Payload (List String)
  | [] => .ok []
  | h :: hs =>
      match w.handlers.find? h with
      | some handler =>
          match handler.naming.read with
          | .ok name => (w.readNames hs).map (name :: ·)
          | .error payload => .error payload
      | none => w.readNames hs

def snapshotOf (w : World) (d : DispatcherId) : Snapshot := (w.registry d).snapshot w.alive

/-- The registry is purged if a snapshot of it has shown dead entries. -/
def sweep (w : World) (p : PassId) (d : DispatcherId) (dead : Nat) : World :=
  if dead = 0 then w else (w.purge d (some p)).1

/-- A pass takes its snapshot, holds the handlers in it, and sweeps the registry. -/
def survey (w : World) (p : PassId) (d : DispatcherId) : World :=
  let snapshot := w.snapshotOf d
  ((w.retainAll snapshot.live).sweep p d snapshot.dead).record
    (.opened p d snapshot.live snapshot.dead)

/-- The calls of a pass, and the permits that they share. -/
def setCalls (w : World) (p : PassId) (calls : List Call) (permits : Option Permits) : World :=
  w.modifyPass p fun pass => { pass with phase := .running, calls, permits }

def makeDue (w : World) (p : PassId) (positions : List Nat) : World :=
  w.setWaking (w.waking.enqueue (positions.map fun i => ⟨p, i⟩))

/-- The first poll of a pass: it surveys its dispatcher, and has a call for each living handler. If
the name of one of them panics, the pass is closed and holds none. -/
def openPass (w : World) (p : PassId) (pass : Pass) : World × Option Payload :=
  let d := pass.dispatcher
  let live := (w.snapshotOf d).live
  let surveyed := w.survey p d
  match surveyed.readNames live with
  | .error payload => ((surveyed.releaseAll live).close p (.panicked payload), some payload)
  | .ok names =>
      let calls := live.zipWith (fun handler name => { handler, name }) names
      let ready := surveyed.setCalls p calls (surveyed.settings d).permits
      (ready.makeDue p (List.range calls.length), none)

def setPermits (w : World) (p : PassId) (permits : Permits) : World :=
  w.modifyPass p fun pass => { pass with permits := some permits }

def countCall (w : World) (h : HandlerId) : World :=
  (w.modifyHandler h fun handler => { handler with begun := handler.begun + 1 }).setTally
    w.tally.began

/-- Begins a call: it gets its handler's next number, and the script for it. -/
def beginCall (w : World) (p : PassId) (i : Nat) (pass : Pass) (call : Call) : World :=
  match w.handlers.find? call.handler with
  | some handler =>
      ((w.countCall call.handler).setStatus p i
        (.running handler.begun .ready (handler.script handler.begun))).record
          (.began p i call.handler handler.begun pass.occasion (w.isCancelled pass.token))
  | none => w

/-- Gives a permit back to a pass that counts them, and with it the next call its turn. -/
def returnPermit (w : World) (p : PassId) : World :=
  match w.passes[p]? with
  | some { permits := some permits, .. } =>
      match permits.giveBack with
      | (left, some next) => ((w.setPermits p left).setStatus p next .granted).wake ⟨p, next⟩
      | (left, none) => w.setPermits p left
  | _ => w

/-- What every call does when it is over, however it went. -/
def retire (w : World) (p : PassId) (i : Nat) (handler : HandlerId) (error : Option CallError) :
    World :=
  ((w.setStatus p i (.finished error)).release handler).returnPermit p

def returnCall (w : World) (p : PassId) (i : Nat) (handler : HandlerId)
    (error : Option CallError) : World :=
  ((w.setTally w.tally.returnedOne).record (.returned p i handler error)).retire p i handler error

def catchPanic (w : World) (p : PassId) (i : Nat) (d : DispatcherId) (call : Call)
    (payload : Payload) : World :=
  ((w.cutCall p i call.handler).record (.caught p i d call.name payload.info)).retire p i
    call.handler (some (.panicked payload.info))

end Fanout.World
