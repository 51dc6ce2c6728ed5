import Fanout.Machine
import Fanout.Proofs.Roster

/-! Runs: any number of moves, in any order, of the parties to a world. A pass is polled in small
steps, between which others may act; the steps of its handlers are among them. -/
namespace Fanout

def World.isOutermost (w : World) (p : PassId) : Bool :=
  match w.passes[p]? with
  | some pass => pass.lineage = []
  | none => false

inductive Move
  /-- The poll that is under way goes on by one small step. -/
  | tick
  /-- Somebody acts on the world, perhaps in the middle of a poll. -/
  | act (action : Action)
  | start (summons : Summons)
  /-- An outermost pass is polled, when no other poll is under way. -/
  | poll (pass : PassId)
  /-- The outermost pass is not polled again at once, though it was woken. -/
  | suspend
  /-- An outermost pass is given up, when no poll is under way. -/
  | drop (pass : PassId)
  /-- The entries of a registry are gone through in another order from now on. -/
  | reorder (dispatcher : DispatcherId) (order : List (Key × Registration))
  deriving DecidableEq, Repr

namespace Machine

def idle (arity : Arity) (blueprints : List Blueprint) : Machine :=
  ⟨{ arity, blueprints }, .settled none⟩

/-- A move that cannot be made changes nothing. -/
def move (m : Machine) : Move → Machine
  | .tick => m.tick
  | .act action => ⟨(m.world.perform action).1, m.control⟩
  | .start summons =>
      match m.world.summon none summons with
      | .ok (_, started) => ⟨started, m.control⟩
      | .error _ => m
  | .poll p => if m.isSettled && m.world.isOutermost p then toPoll m.world p else m
  | .suspend =>
      match m.control with
      | .leaving _ [] => ⟨m.world, .settled none⟩
      | _ => m
  | .drop p =>
      if m.isSettled && m.world.isOutermost p then ⟨m.world.abandon p .dropped, m.control⟩ else m
  | .reorder d order => ⟨m.world.reorder d order, m.control⟩

def run (m : Machine) (moves : List Move) : Machine := moves.foldl move m

/-- The next small step is the first poll of the pass. -/
def isOpening (m : Machine) (p : PassId) : Bool :=
  match m.control with
  | .entering q _ => q = p && m.world.isFresh p
  | _ => false

/-- The world in which a pass is polled for the first time, if a run comes to that. -/
def openingOf (p : PassId) (m : Machine) : List Move → Option World
  | [] => none
  | move :: moves =>
      if m.isOpening p && move = .tick then some m.world else openingOf p (m.move move) moves

theorem run_append (m : Machine) (first second : List Move) :
    m.run (first ++ second) = (m.run first).run second := List.foldl_append

/-- A pass is opened in a run exactly if one of its moves is the first poll. -/
theorem openingOf_eq_some {p : PassId} {m : Machine} {moves : List Move} {opening : World}
    (h : m.openingOf p moves = some opening) :
    ∃ before after, moves = before ++ .tick :: after ∧
      (m.run before).isOpening p = true ∧ (m.run before).world = opening := by
  induction moves generalizing m with
  | nil => simp [openingOf] at h
  | cons move moves ih =>
    unfold openingOf at h
    split at h
    · rename_i hm
      simp only [Bool.and_eq_true, decide_eq_true_eq] at hm
      exact ⟨[], moves, by simp [hm.2], by simpa [run] using hm.1, by simpa [run] using h⟩
    · obtain ⟨before, after, rfl, hp, hw⟩ := ih h
      exact ⟨move :: before, after, rfl, hp, hw⟩

end Machine
end Fanout
