import Fanout.Occasion

/-!
Waking. A call that waits for a gate or for its token is woken when that may have come true, and a
call that is woken is due: it is polled the next time that its pass is. Who waits and who is due
are kept in the order in which they came to it.
-/
namespace Fanout

/-- What a call can wait for, to be woken by it. -/
inductive Signal
  /-- The gate was opened, or somebody arrived at it. -/
  | gate (gate : String)
  | cancellation (token : Token)
  deriving DecidableEq, Repr

structure Waking where
  waiting : List (Signal × CallId) := []
  due : List CallId := []
  /-- The passes that have asked whoever waits for them to be polled again. -/
  asked : List PassId := []
  /-- The outermost pass is to be polled again. -/
  again : Bool := false
  deriving DecidableEq, Repr

namespace Waking

/-- A call waits for a signal; to wait twice is to wait once. -/
def await (waking : Waking) (signal : Signal) (call : CallId) : Waking :=
  if waking.waiting.contains (signal, call) then waking
  else { waking with waiting := waking.waiting ++ [(signal, call)] }

def waiters (waking : Waking) (signal : Signal) : List CallId :=
  (waking.waiting.filter fun e => e.1 = signal).map (·.2)

/-- Nobody waits for the signal any longer. -/
def dismiss (waking : Waking) (signal : Signal) : Waking :=
  { waking with waiting := waking.waiting.filter fun e => e.1 ≠ signal }

def isDue (waking : Waking) (call : CallId) : Bool := waking.due.contains call

def enqueue (waking : Waking) (calls : List CallId) : Waking :=
  { waking with due := waking.due ++ calls }

/-- The call of a pass that is due next, and what is left when it has been taken. -/
def next? (waking : Waking) (pass : PassId) : Option (CallId × Waking) :=
  (waking.due.find? fun call => call.pass = pass).map fun call =>
    (call, { waking with due := waking.due.erase call })

def hasAsked (waking : Waking) (pass : PassId) : Bool := waking.asked.contains pass

def ask (waking : Waking) (pass : PassId) : Waking :=
  { waking with asked := pass :: waking.asked }

/-- The pass is polled, so that it may ask again. -/
def answer (waking : Waking) (pass : PassId) : Waking :=
  { waking with asked := waking.asked.filter (· ≠ pass) }

theorem next?_eq_none_iff (waking : Waking) (pass : PassId) :
    waking.next? pass = none ↔ ∀ call ∈ waking.due, call.pass ≠ pass := by
  simp [next?]

/-- A call that is taken was due, and it belongs to the pass. -/
theorem mem_due_of_next? {waking left : Waking} {pass : PassId} {call : CallId}
    (h : waking.next? pass = some (call, left)) : call ∈ waking.due ∧ call.pass = pass := by
  simp only [next?, Option.map_eq_some_iff, Prod.mk.injEq] at h
  obtain ⟨found, hf, rfl, -⟩ := h
  exact ⟨List.mem_of_find?_eq_some hf, by simpa using List.find?_some hf⟩

/-- When a call is taken, it is due once less. -/
theorem eq_of_next? {waking left : Waking} {pass : PassId} {call : CallId}
    (h : waking.next? pass = some (call, left)) :
    left = { waking with due := waking.due.erase call } := by
  simp only [next?, Option.map_eq_some_iff, Prod.mk.injEq] at h
  obtain ⟨_, -, rfl, same⟩ := h
  exact same.symm

end Waking
end Fanout
