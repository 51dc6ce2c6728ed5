import Fanout.World.Steps

/-!
Polling, one small step at a time. A pass that is polled takes its turn: it polls the calls that
are due, each until it has to wait for something. All calls that are not over are due in a pass
that is not crowded; in a crowded one only those are that were woken. A crowded pass breaks its
turn off when two calls asked to be polled again at once, or when as many had to wait as are not
over, counting from the last call that was over. A call that waits for another pass polls that one
first, so the machine works on a stack of frames, the innermost pass on top. The outermost pass is
polled again as long as it is woken by what happens in its turn, and is left pending after that.

A call ends by returning or by a panic. The panic is caught if the pass isolates panics; otherwise
the pass is given up, and the panic goes on in the call that waited for it, if there is one.
-/
namespace Fanout

/-- How far a pass has come in its turn, since the turn began or one of its calls was over. -/
structure Turn where
  pass : PassId
  /-- How many of its calls were polled and have to wait. -/
  polled : Nat := 0
  /-- How many of these were woken while they were polled. -/
  restless : Nat := 0
  deriving DecidableEq, Repr

/-- The turn of a pass, and the position of the call that is polled in it. -/
structure Frame extends Turn where
  call : Nat
  deriving DecidableEq, Repr

def Frame.callId (frame : Frame) : CallId := ⟨frame.pass, frame.call⟩

inductive Control
  | entering (pass : PassId) (outer : List Frame)
  | choosing (turn : Turn) (outer : List Frame)
  | polling (frame : Frame) (outer : List Frame)
  | leaving (pass : PassId) (outer : List Frame)
  | ending (verdict : Verdict) (frames : List Frame)
  /-- The outermost pass has ended, or else it is pending. -/
  | settled (ending : Option Ending)
  deriving DecidableEq, Repr

structure Machine where
  world : World
  control : Control
  deriving DecidableEq, Repr

namespace Machine

def toPoll (w : World) (p : PassId) : Machine :=
  ⟨w.setWaking { w.waking with again := false }, .entering p []⟩

/-- There is nothing to do that could be done. -/
def stuck (w : World) : Machine := ⟨w, .settled none⟩

def stay (frame : Frame) (outer : List Frame) (w : World) : Machine := ⟨w, .polling frame outer⟩

/-- The pass begins its turn, or begins to count anew after a call that is over. -/
def beginTurn (p : PassId) (outer : List Frame) (w : World) : Machine :=
  ⟨w.setWaking (w.waking.answer p), .choosing { pass := p } outer⟩

/-- The turn of a crowded pass is broken off after this. -/
def breaksOff (pass : Pass) (turn : Turn) : Bool :=
  2 ≤ turn.restless || turn.polled = pass.unfinished.length

/-- The call has to wait, and the turn goes on without it, unless it is broken off; then the pass
asks to be polled again. -/
def pause (frame : Frame) (outer : List Frame) (w : World) : Machine :=
  match w.passes[frame.pass]? with
  | some pass =>
      if pass.isCrowded then
        let restless := if w.waking.isDue frame.callId then 1 else 0
        let turn : Turn := ⟨frame.pass, frame.polled + 1, frame.restless + restless⟩
        if breaksOff pass turn then ⟨w.rouse pass.lineage, .leaving frame.pass outer⟩
        else ⟨w, .choosing turn outer⟩
      else ⟨w, .choosing frame.toTurn outer⟩
  | none => stuck w

/-- The pass has to wait, and with it the call that waits for it. The outermost pass is polled again
if it was woken. -/
def leave (w : World) (p : PassId) (outer : List Frame) : Machine :=
  match outer with
  | frame :: frames => pause frame frames w
  | [] => if w.waking.again then toPoll w p else ⟨w, .settled none⟩

/-- Hands the error of a pass, or that there was none, to the call that waited for it. -/
def deliver (w : World) (error : Option DispatchError) (outer : List Frame) : Machine :=
  match outer with
  | [] => ⟨w, .settled (some (.completed error))⟩
  | frame :: frames =>
      match w.call? frame.pass frame.call with
      | some { handler, status := .running number (.pass _ propagate) rest, .. } =>
          match error, propagate with
          | some e, true => ⟨w, .ending (.returned (some (.fail e))) (frame :: frames)⟩
          | _, _ =>
              stay frame frames
                ((w.tell frame.pass frame.call handler
                  (.did "invoke" (Ending.completed error).answer)).setStatus
                    frame.pass frame.call (.running number .ready rest))
      | _ => stuck w

/-- No call of the pass is due any more: it is over, or it has to wait. -/
def endTurn (w : World) (p : PassId) (outer : List Frame) : Machine :=
  match w.passes[p]? with
  | some pass =>
      if pass.isOver then deliver (w.close p (.completed pass.error?)) pass.error? outer
      else ⟨w, .leaving p outer⟩
  | none => stuck w

/-- Takes the next call that is due; one that is over meanwhile is passed by. -/
def choose (w : World) (turn : Turn) (outer : List Frame) : Machine :=
  match w.waking.next? turn.pass with
  | some (call, left) =>
      match w.call? call.pass call.position with
      | some { status, .. } =>
          if status.isUnfinished then
            ⟨w.setWaking left, .polling { turn with call := call.position } outer⟩
          else ⟨w.setWaking left, .choosing turn outer⟩
      | none => ⟨w.setWaking left, .choosing turn outer⟩
  | none => endTurn w turn.pass outer

/-- The call has to wait, but asks to be polled again at once. -/
def yield (frame : Frame) (outer : List Frame) (w : World) : Machine :=
  pause frame outer (w.wake frame.callId)

/-- What a running call does after a step, with `rest` before it. -/
def afterStep (frame : Frame) (outer : List Frame) (number : Nat) (rest : Script) :
    World × Effect → Machine
  | (after, .goOn await) =>
      stay frame outer (after.setStatus frame.pass frame.call (.running number await rest))
  | (after, .giveWay turns) =>
      yield frame outer
        (after.setStatus frame.pass frame.call (.running number (.turns turns) rest))
  | (after, .finish verdict) => ⟨after, .ending verdict (frame :: outer)⟩

def visitRunning (w : World) (frame : Frame) (outer : List Frame) (pass : Pass)
    (handler : HandlerId) (number : Nat) (await : Await) (rest : Script) : Machine :=
  match await with
  | .ready =>
      match rest with
      | step :: rest =>
          afterStep frame outer number rest (w.take frame.pass frame.call pass handler step)
      | [] => ⟨w, .ending (.returned none) (frame :: outer)⟩
  | .turns (n + 1) =>
      yield frame outer (w.setStatus frame.pass frame.call (.running number (.turns n) rest))
  | .pass q _ => ⟨w, .entering q (frame :: outer)⟩
  | await =>
      if w.isMet pass.token await then
        stay frame outer (w.setStatus frame.pass frame.call (.running number .ready rest))
      else pause frame outer (w.await frame.callId pass.token await)

def visit (w : World) (frame : Frame) (outer : List Frame) (pass : Pass) (call : Call) : Machine :=
  match call.status with
  | .idle =>
      match pass.permits with
      | none => stay frame outer (w.beginCall frame.pass frame.call pass call)
      | some permits =>
          match permits.take? with
          | some left =>
              stay frame outer
                ((w.setPermits frame.pass left).beginCall frame.pass frame.call pass call)
          | none =>
              pause frame outer
                ((w.setPermits frame.pass (permits.enqueue frame.call)).setStatus
                  frame.pass frame.call .queued)
  | .queued => pause frame outer w
  | .granted => stay frame outer (w.beginCall frame.pass frame.call pass call)
  | .running number await rest => visitRunning w frame outer pass call.handler number await rest
  | .finished _ => stuck w
  | .abandoned => stuck w

/-- A pass that was opened is polled; what came out of it instead ends the call that waits for it. -/
def afterOpening (p : PassId) (outer : List Frame) : World × Option Payload → Machine
  | (opened, none) => beginTurn p outer opened
  | (closed, some payload) => ⟨closed, .ending (.panicked payload) outer⟩

/-- Polls a pass. In one that is not crowded, all calls that are not over become due. -/
def enter (w : World) (p : PassId) (outer : List Frame) : Machine :=
  match w.passes[p]? with
  | some pass =>
      match pass.phase with
      | .fresh => afterOpening p outer (w.openPass p pass)
      | .running =>
          beginTurn p outer (if pass.isCrowded then w else w.makeDue p pass.unfinished)
      | .closed _ => stuck w
  | none => stuck w

def poll (w : World) (frame : Frame) (outer : List Frame) : Machine :=
  match w.passes[frame.pass]?, w.call? frame.pass frame.call with
  | some pass, some call => visit w frame outer pass call
  | _, _ => stuck w

/-- Ends the call of the innermost frame. A panic that no call is left to end in comes out. -/
def conclude (w : World) (verdict : Verdict) (frames : List Frame) : Machine :=
  match frames with
  | [] =>
      match verdict with
      | .panicked payload => ⟨w, .settled (some (.panicked payload))⟩
      | .returned _ => stuck w
  | frame :: outer =>
      match w.passes[frame.pass]?, w.call? frame.pass frame.call with
      | some pass, some call =>
          match verdict with
          | .returned error =>
              beginTurn frame.pass outer (w.returnCall frame.pass frame.call call.handler error)
          | .panicked payload =>
              if (w.settings pass.dispatcher).isolatePanics then
                beginTurn frame.pass outer
                  (w.catchPanic frame.pass frame.call pass.dispatcher call payload)
              else ⟨w.abandon frame.pass (.panicked payload), .ending (.panicked payload) outer⟩
      | _, _ => stuck w

/-- One small step; a settled machine stays as it is. -/
def tick (m : Machine) : Machine :=
  match m.control with
  | .entering p outer => enter m.world p outer
  | .choosing turn outer => choose m.world turn outer
  | .polling frame outer => poll m.world frame outer
  | .leaving p outer => leave m.world p outer
  | .ending verdict frames => conclude m.world verdict frames
  | .settled _ => m

def isSettled (m : Machine) : Bool :=
  match m.control with
  | .settled _ => true
  | _ => false

/-- Runs until there is nothing left to do, or for so many steps. -/
def settle : Nat → Machine → Machine
  | 0, m => m
  | fuel + 1, m => if m.isSettled then m else settle fuel m.tick

theorem settle_of_isSettled (fuel : Nat) {m : Machine} (h : m.isSettled = true) :
    settle fuel m = m := by
  cases fuel <;> simp [settle, h]

/-- A run may be cut in two anywhere. -/
theorem settle_add (a b : Nat) (m : Machine) : settle (a + b) m = settle b (settle a m) := by
  induction a generalizing m with
  | zero => simp [settle]
  | succ a ih =>
    rw [Nat.succ_add, settle, settle]
    split
    · rename_i h
      exact (settle_of_isSettled b h).symm
    · exact ih m.tick

/-- More steps than a run needs change nothing. -/
theorem settle_of_le {a b : Nat} {m : Machine} (h : (settle a m).isSettled = true) (hab : a ≤ b) :
    settle b m = settle a m := by
  obtain ⟨c, rfl⟩ := Nat.exists_eq_add_of_le hab
  rw [settle_add, settle_of_isSettled c h]

end Machine

namespace World

/-- Polls a pass until it ends, which gives an ending, or is pending, which gives none; there is no
result if that takes more steps than there may be. -/
def poll? (fuel : Nat) (w : World) (p : PassId) : Option (World × Option Ending) :=
  let m := Machine.settle fuel (.toPoll w p)
  match m.control with
  | .settled ending => some (m.world, ending)
  | _ => none

/-- What a poll comes to does not depend on how many steps it may take. -/
theorem poll?_of_le {a b : Nat} {w : World} {p : PassId} {result : World × Option Ending}
    (h : w.poll? a p = some result) (hab : a ≤ b) : w.poll? b p = some result := by
  have settled : (Machine.settle a (.toPoll w p)).isSettled = true := by
    unfold poll? at h
    unfold Machine.isSettled
    generalize (Machine.settle a (.toPoll w p)) = m at h ⊢
    cases hc : m.control <;> simp_all
  rw [← h, poll?, poll?, Machine.settle_of_le settled hab]

end World
end Fanout
