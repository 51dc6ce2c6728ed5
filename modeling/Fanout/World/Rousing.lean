import Fanout.World

/-!
Waking calls in a world. To wake a call is to see to it that it is polled: its pass has to be
polled for that, hence the call that waits for its pass, and so on outwards. A crowded pass keeps
in mind which of its calls were woken, and asks to be polled once only; any other pass will poll
them all. Waking changes nothing but who is to be polled.
-/
namespace Fanout.World

def setWaking (w : World) (waking : Waking) : World := { w with waking }

def isCrowded (w : World) (p : PassId) : Bool :=
  match w.passes[p]? with
  | some pass => pass.isCrowded
  | none => false

/-- Wakes a call, given with all that wait for it, outwards. -/
def rouse (w : World) : List CallId → World
  | [] => w.setWaking { w.waking with again := true }
  | call :: callers =>
      if w.isCrowded call.pass then
        if w.waking.isDue call then w
        else
          let waking := w.waking.enqueue [call]
          if waking.hasAsked call.pass then w.setWaking waking
          else (w.setWaking (waking.ask call.pass)).rouse callers
      else w.rouse callers

/-- Wakes a call, unless it is over. -/
def wake (w : World) (call : CallId) : World :=
  match w.passes[call.pass]?, w.call? call.pass call.position with
  | some pass, some { status, .. } =>
      if status.isUnfinished then w.rouse (call :: pass.lineage) else w
  | _, _ => w

def signal (w : World) (signal : Signal) : World :=
  (w.waking.waiters signal).foldl wake (w.setWaking (w.waking.dismiss signal))

theorem passes_rouse (w : World) (calls : List CallId) : (w.rouse calls).passes = w.passes := by
  induction calls generalizing w with
  | nil => rfl
  | cons call callers ih =>
    unfold rouse
    dsimp only
    split
    · split
      · rfl
      · split
        · rfl
        · exact ih _
    · exact ih _

theorem passes_wake (w : World) (call : CallId) : (w.wake call).passes = w.passes := by
  unfold wake
  split
  · split
    · exact passes_rouse ..
    · rfl
  · rfl

theorem passes_signal (w : World) (s : Signal) : (w.signal s).passes = w.passes := by
  have all : ∀ (calls : List CallId) (v : World), (calls.foldl wake v).passes = v.passes := by
    intro calls
    induction calls with
    | nil => intro v; rfl
    | cons call calls ih => intro v; exact (ih (v.wake call)).trans (passes_wake v call)
  exact all _ _

end Fanout.World
