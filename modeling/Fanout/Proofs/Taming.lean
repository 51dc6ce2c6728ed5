import Fanout.Proofs.VeilTurns

/-! Taming: every panic that a script still holds is replaced by the return of the error that the
panic would be reported as, and every panic that was caught is told as such a return. That is a veil
over panics, so what is done to a world is done to the tamed world in the same way, and nothing that
happens depends on which of the two a handler does. -/
namespace Fanout

/-- A step that panics returns the error of its panic instead. -/
def Step.tame : Step → Step
  | panic payload => fail (.panicked payload.info)
  | step => step

def Status.tame : Status → Status
  | running number await rest => running number await (rest.map Step.tame)
  | status => status

def Call.tame (call : Call) : Call := { call with status := call.status.tame }

def Pass.tame (pass : Pass) : Pass := { pass with calls := pass.calls.map Call.tame }

def Handler.tame (handler : Handler) : Handler :=
  { handler with scripts := handler.scripts.map (List.map Step.tame) }

def Blueprint.tame (blueprint : Blueprint) : Blueprint :=
  { blueprint with scripts := blueprint.scripts.map (List.map Step.tame) }

/-- A call that panics is not counted among those that returned, so they are not counted. -/
def Tally.tame (tally : Tally) : Tally := { tally with returned := 0 }

def Answer.tame : Answer → Answer
  | tally begun _ running => tally begun 0 running
  | answer => answer

def Note.tame : Note → Note
  | did label answer => did label answer.tame
  | note => note

def Event.tame : Event → Event
  | noted p i h note => noted p i h note.tame
  | event => event

/-- The panic of a call that was caught, after the call was cut, is told as its return. -/
def retell : List Event → List Event
  | .caught _ _ _ _ info :: .cut p i h :: earlier =>
      .returned p i h (some (.panicked info)) :: retell earlier
  | event :: earlier => event.tame :: retell earlier
  | [] => []

/-- The world with everything tamed that its handlers may still do or have done. -/
def World.tame (w : World) : World :=
  { w with
    blueprints := w.blueprints.map Blueprint.tame
    handlers := w.handlers.map Handler.tame
    passes := w.passes.map Pass.tame
    tally := w.tally.tame
    history := retell w.history }

/-- The error that a call is reported with, if its panic is caught. -/
def Verdict.error : Verdict → Option CallError
  | returned error => error
  | panicked payload => some (.panicked payload.info)

/-- A call that ends by a panic returns the error of the panic instead. -/
def Verdict.tame (verdict : Verdict) : Verdict := .returned verdict.error

theorem retell_cons {event : Event}
    (uncaught : ∀ p i d name info, event ≠ .caught p i d name info)
    (earlier : List Event) : retell (event :: earlier) = event.tame :: retell earlier := by
  cases event with
  | caught p i d name info => exact absurd rfl (uncaught p i d name info)
  | _ => rw [retell]; simp

def Veil.taming : Veil where
  step := Step.tame
  verdict := Verdict.tame
  returned _ := 0
  history := retell
  verdict_returned _ := rfl
  occasion_arity := Veil.occasion_kept
  contains_cancelled := Veil.cancelled_kept
  history_cons event earlier uncaught := by
    rw [retell_cons uncaught]
    cases event with
    | noted p i h note =>
      rcases note with _ | _ | ⟨label, answer⟩
      case did => cases answer <;> rfl
      all_goals rfl
    | _ => rfl

theorem Veil.taming_showsTokens : Veil.taming.ShowsTokens := rfl

namespace World
variable (w : World)

theorem tame_eq : w.tame = w.under .taming := rfl

/-- A call is over, and is not counted among those that returned. -/
def endCall (p : PassId) (i : Nat) (h : HandlerId) (error : Option CallError) : World :=
  ((w.setTally w.tally.cutOne).record (.returned p i h error)).retire p i h error

theorem tame_returnCall (p : PassId) (i : Nat) (h : HandlerId) (error : Option CallError) :
    (w.returnCall p i h error).tame = w.tame.endCall p i h error := by
  unfold returnCall
  rw [tame_eq, under_retire, under_record _ _ (by simp)]
  rfl

theorem tame_catchPanic (p : PassId) (i : Nat) (d : DispatcherId) (call : Call)
    (payload : Payload) : (w.catchPanic p i d call payload).tame =
      w.tame.endCall p i call.handler (some (.panicked payload.info)) := by
  unfold catchPanic
  rw [tame_eq, under_retire]
  rfl

/-- Every step but a panic is one that does not show whether panics are tame. -/
theorem take_tame (p : PassId) (i : Nat) (pass : Pass) (h : HandlerId) (step : Step) :
    (w.under .taming).take p i (pass.under .taming) h (step.under .taming) =
      shownStep .taming (w.take p i pass h step) := by
  cases step with
  | panic payload => rfl
  | _ => exact w.take_under p i pass h ⟨rfl, fun _ => Veil.taming_showsTokens, fun _ => rfl, nofun⟩

end World
end Fanout
