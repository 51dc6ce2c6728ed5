import Fanout.Proofs.Rousing

/-! Independent handlers. A step is independent if it concerns nothing but the call itself, the event
and its token: what it comes to is then known beforehand, and so is what a call tells, how it ends
and how long that takes at most. -/
namespace Fanout

namespace Step

/-- The step concerns nothing but the call itself, the event and its token. -/
def isIndependent : Step → Bool
  | waitFor _ => false
  | arrive _ _ => false
  | awaitToken => false
  | cancelToken => false
  | raise _ _ => false
  | act _ _ => false
  | _ => true

/-- What an independent step comes to, for an event that carries this, and whose token is cancelled or
not. -/
def effect (occasion : Occasion) (cancelled : Bool) : Step → Effect
  | finish => .finish (.returned none)
  | linger (n + 1) => .giveWay n
  | fail error => .finish (.returned (some error))
  | failWithOccasion => .finish (.returned (some (.failed occasion.summary)))
  | failBelow bound =>
      if occasion.number < bound then
        .finish (.returned (some (.failed (toString occasion.number))))
      else .goOn .ready
  | failFor sender =>
      if occasion.sender = some sender then
        .finish (.returned (some (.failed ("unexpected sender " ++ sender))))
      else .goOn .ready
  | panic payload => .finish (.panicked payload)
  | checkToken => if cancelled then .finish (.returned (some .canceled)) else .goOn .ready
  | _ => .goOn .ready

def notes (cancelled : Bool) : Step → List Note
  | say text => [.said text]
  | showToken => [.token cancelled]
  | _ => []

/-- For how many polls the step holds its call up at most. -/
def toil : Step → Nat
  | linger times => times + 1
  | _ => 1

theorem toil_pos (step : Step) : 0 < step.toil := by
  cases step <;> exact Nat.succ_pos _

/-- A call goes on after an independent step, lets others go first, or ends without a word. -/
theorem effect_cases {step : Step} (independent : step.isIndependent = true) (occasion : Occasion)
    (cancelled : Bool) : step.effect occasion cancelled = .goOn .ready ∨
      (∃ n, step.effect occasion cancelled = .giveWay n ∧ n + 1 < step.toil) ∨
      ∃ verdict, step.effect occasion cancelled = .finish verdict ∧ step.notes cancelled = [] := by
  cases step with
  | linger times =>
    cases times with
    | zero => exact .inl rfl
    | succ n => exact .inr (.inl ⟨n, rfl, Nat.lt_succ_self _⟩)
  | failBelow bound =>
    simp only [effect]
    split
    · exact .inr (.inr ⟨_, rfl, rfl⟩)
    · exact .inl rfl
  | failFor sender =>
    simp only [effect]
    split
    · exact .inr (.inr ⟨_, rfl, rfl⟩)
    · exact .inl rfl
  | checkToken =>
    simp only [effect]
    split
    · exact .inr (.inr ⟨_, rfl, rfl⟩)
    · exact .inl rfl
  | say _ | showToken => exact .inl rfl
  | finish | fail _ | failWithOccasion | panic _ => exact .inr (.inr ⟨_, rfl, rfl⟩)
  | waitFor _ | arrive _ _ | awaitToken | cancelToken | raise _ _ | act _ _ => cases independent

end Step

namespace Script

def Independent (script : Script) : Prop := ∀ step ∈ script, step.isIndependent = true

instance (script : Script) : Decidable script.Independent :=
  inferInstanceAs (Decidable (∀ step ∈ script, _))

def verdict (occasion : Occasion) (cancelled : Bool) : Script → Verdict
  | [] => .returned none
  | step :: rest =>
      match step.effect occasion cancelled with
      | .finish verdict => verdict
      | _ => verdict occasion cancelled rest

def notes (occasion : Occasion) (cancelled : Bool) : Script → List Note
  | [] => []
  | step :: rest =>
      match step.effect occasion cancelled with
      | .finish _ => step.notes cancelled
      | _ => step.notes cancelled ++ notes occasion cancelled rest

def toil (script : Script) : Nat := (script.map Step.toil).sum

@[simp] theorem toil_cons (step : Step) (rest : Script) :
    Script.toil (step :: rest) = step.toil + rest.toil := List.sum_cons

section
variable {occasion : Occasion} {cancelled : Bool} {step : Step} (rest : Script)

theorem verdict_of_finish {verdict : Verdict}
    (finish : step.effect occasion cancelled = .finish verdict) :
    Script.verdict occasion cancelled (step :: rest) = verdict := by
  simp only [Script.verdict, finish]

theorem notes_of_finish {verdict : Verdict}
    (finish : step.effect occasion cancelled = .finish verdict) :
    Script.notes occasion cancelled (step :: rest) = step.notes cancelled := by
  simp only [Script.notes, finish]

theorem verdict_of_goes_on (goes_on : ∀ verdict, step.effect occasion cancelled ≠ .finish verdict) :
    Script.verdict occasion cancelled (step :: rest) = rest.verdict occasion cancelled := by
  rw [Script.verdict]
  split
  · rename_i verdict finish
    exact absurd finish (goes_on verdict)
  · rfl

theorem notes_of_goes_on (goes_on : ∀ verdict, step.effect occasion cancelled ≠ .finish verdict) :
    Script.notes occasion cancelled (step :: rest) =
      step.notes cancelled ++ rest.notes occasion cancelled := by
  rw [Script.notes]
  split
  · rename_i verdict finish
    exact absurd finish (goes_on verdict)
  · rfl

end
end Script

namespace World

def tells (w : World) (p : PassId) (i : Nat) (h : HandlerId) (notes : List Note) : World :=
  notes.foldl (fun w note => w.tell p i h note) w

theorem tells_frame (w : World) (p : PassId) (i : Nat) (h : HandlerId) (notes : List Note) :
    (w.tells p i h notes).passes = w.passes ∧ (w.tells p i h notes).handlers = w.handlers ∧
      (w.tells p i h notes).waking = w.waking := by
  induction notes generalizing w with
  | nil => exact ⟨rfl, rfl, rfl⟩
  | cons note notes ih => exact ih (w.tell p i h note)

/-- An independent step tells what there is to tell, and does nothing else to the world. -/
theorem take_independent (w : World) (p : PassId) (i : Nat) (pass : Pass) (h : HandlerId)
    {step : Step} (independent : step.isIndependent = true) :
    w.take p i pass h step =
      (w.tells p i h (step.notes (w.isCancelled pass.token)),
        step.effect pass.occasion (w.isCancelled pass.token)) := by
  cases step with
  | linger times => cases times <;> rfl
  | failBelow bound =>
    simp only [take, Step.effect]
    split <;> rfl
  | failFor sender =>
    simp only [take, Step.effect]
    split <;> rfl
  | checkToken =>
    simp only [take, Step.effect]
    split <;> rfl
  | waitFor _ | arrive _ _ | awaitToken | cancelToken | raise _ _ | act _ _ => cases independent
  | _ => rfl

end World
end Fanout
