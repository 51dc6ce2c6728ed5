import Fanout.Proofs.Underway

/-! A pass that is alone ends, and it is known how. As long as a call that could go on is polled,
the calls have less and less to do: each tick takes something off that, or brings the turn nearer to
the next call that is due. When nothing is left to do, all that each handler was to do has been
done, in whatever order and under whatever limit. -/
namespace Fanout

/-- The call would go on if it were polled. -/
def Status.isPressing : Status → Bool
  | idle => true
  | granted => true
  | running _ _ _ => true
  | _ => false

theorem Status.isUnfinished_of_isPressing {status : Status} (h : status.isPressing = true) :
    status.isUnfinished = true := by
  cases status <;> simp_all [isPressing, isUnfinished]

/-- For how many polls a wait holds its call up at most. -/
def Await.toil : Await → Nat
  | turns n => n + 1
  | _ => 0

/-- How much there is to do in a call of this status, counted so that less is left after each thing
that is done. -/
def Part.toil (part : Part) : Status → Nat
  | .idle => part.script.toil + 4
  | .queued => part.script.toil + 3
  | .granted => part.script.toil + 2
  | .running _ await rest => await.toil + rest.toil + 1
  | _ => 0

namespace Solo
variable (s : Solo)

def toilAt (pass : Pass) (i : Nat) : Nat :=
  match pass.calls[i]?, s.parts[i]? with
  | some call, some part => part.toil call.status
  | _, _ => 0

/-- How much there is to do in all calls together. -/
def toil (pass : Pass) : Nat := ∑ i ∈ Finset.range s.parts.length, s.toilAt pass i

/-- What is to be done before the pass ends. That an uncrowded pass was woken counts as well, since
its next turn, in which all of its calls are polled, uses this up. -/
def effort (w : World) (pass : Pass) : Nat :=
  2 * s.toil pass + (!pass.isCrowded && w.waking.again).toNat

/-- How many times calls of the pass are due. -/
def dueOf (w : World) : Nat := w.waking.due.countP fun call => call.pass = s.pass

/-- How far it is to the next thing that is done. -/
def rank (pass : Pass) (m : Machine) : Nat :=
  match m.control with
  | .entering _ _ =>
      4 * (s.dueOf m.world + if pass.isCrowded then 0 else pass.calls.length) + 2
  | .choosing _ _ => 4 * s.dueOf m.world + 1
  | .polling _ _ => 4 * s.dueOf m.world + 4
  | .ending _ _ => 4 * s.dueOf m.world + 3
  | .leaving _ _ => if pass.isCrowded then 4 * s.dueOf m.world + 3 else 0
  | .settled _ => 0

/-- The call will be polled: it is due, or all calls will be. -/
def Heard (w : World) (pass : Pass) (i : Nat) : Prop :=
  ⟨s.pass, i⟩ ∈ w.waking.due ∨ pass.isCrowded = false ∧ w.waking.again = true

/-- All calls that would go on will be polled, apart from the one that is polled now. -/
def Attends (w : World) (pass : Pass) (polled : Option Nat) : Prop :=
  ∀ (i : Nat) (call : Call), pass.calls[i]? = some call → call.status.isPressing = true →
    polled ≠ some i → s.Heard w pass i

/-- The poll of the pass is on its way. -/
inductive Going (pass : Pass) : Machine → Prop
  | entering {w : World} (underway : s.Underway w pass)
      (attends : pass.isCrowded = true → s.Attends w pass none) :
      Going pass ⟨w, .entering s.pass []⟩
  | choosing {w : World} {polled restless : Nat} (underway : s.Underway w pass)
      (attends : s.Attends w pass none) :
      Going pass ⟨w, .choosing ⟨s.pass, polled, restless⟩ []⟩
  | polling {w : World} {polled restless i : Nat} {call : Call} (underway : s.Underway w pass)
      (attends : s.Attends w pass (some i)) (at_position : pass.calls[i]? = some call)
      (unfinished : call.status.isUnfinished = true) :
      Going pass ⟨w, .polling ⟨⟨s.pass, polled, restless⟩, i⟩ []⟩
  | leaving {w : World} (underway : s.Underway w pass) (attends : s.Attends w pass none)
      (again : w.waking.again = true) : Going pass ⟨w, .leaving s.pass []⟩
  | ending {w : World} {polled restless i : Nat} {call : Call} {number : Nat} {await : Await}
      {rest : Script} (underway : s.Underway w pass) (attends : s.Attends w pass (some i))
      (at_position : pass.calls[i]? = some call) (begun : call.status = .running number await rest)
      (silent : s.notes rest = []) :
      Going pass
        ⟨w, .ending (rest.verdict s.occasion s.cancelled) [⟨⟨s.pass, polled, restless⟩, i⟩]⟩

def calls : List Call :=
  s.parts.map fun part =>
    { handler := part.handler, name := part.name, status := .finished (s.verdict part).error }

def error? : Option DispatchError := { s.outline with calls := s.calls }.error?

/-- The pass is over, and every handler did what it was to do. -/
structure Completed (w : World) : Prop where
  found : ∃ permits, w.passes[s.pass]? = some { s.outline with
    calls := s.calls, permits, phase := .closed (.completed s.error?) }
  dispatchers : w.dispatchers = s.dispatchers
  handlers : ∀ part ∈ s.parts,
    w.handlers.find? part.handler = some { part.origin with begun := part.origin.begun + 1 }
  traces : ∀ part ∈ s.parts,
    w.tracesOf part.handler = s.before.tracesOf part.handler ++ s.telling part
  others : ∀ h, h ∉ s.parts.map Part.handler →
    w.handlers.find? h = s.before.handlers.find? h ∧ w.tracesOf h = s.before.tracesOf h

/-- What becomes of the machine in a tick: the pass is over, or its poll went on, and there is less
to be done than before. -/
inductive Advances (pass : Pass) (m : Machine) : Machine → Prop
  | settled {w : World} (completed : s.Completed w) :
      Advances pass m ⟨w, .settled (some (.completed s.error?))⟩
  | going {m' : Machine} {pass' : Pass} (going : s.Going pass' m')
      (less : s.effort m'.world pass' < s.effort m.world pass ∨
        s.effort m'.world pass' = s.effort m.world pass ∧ s.rank pass' m' < s.rank pass m) :
      Advances pass m m'

end Solo

namespace World
variable {w : World} {p : PassId} {pass : Pass} {i : Nat} {call : Call}

/-- A call that is woken in a pass from outside will be polled, and so will all that would be. -/
theorem wake_heard (found : w.passes[p]? = some pass) (lineage : pass.lineage = [])
    (at_position : pass.calls[i]? = some call) (unfinished : call.status.isUnfinished = true) :
    (∀ c ∈ w.waking.due, c ∈ (w.wake ⟨p, i⟩).waking.due) ∧
      (w.waking.again = true → (w.wake ⟨p, i⟩).waking.again = true) ∧
      (⟨p, i⟩ ∈ (w.wake ⟨p, i⟩).waking.due ∨
        pass.isCrowded = false ∧ (w.wake ⟨p, i⟩).waking.again = true) := by
  have woken : w.wake ⟨p, i⟩ = w.rouse [⟨p, i⟩] := by
    unfold wake
    simp only [found, call?_of_found found, at_position, unfinished, if_true, lineage]
  have crowd : w.isCrowded p = pass.isCrowded := by simp only [isCrowded, found]
  rw [woken, rouse]
  simp only [crowd]
  split
  · split
    · rename_i due
      exact ⟨fun _ => id, id, .inl (by simpa [Waking.isDue] using due)⟩
    · have enqueued : ∀ c ∈ w.waking.due, c ∈ w.waking.due ++ [⟨p, i⟩] :=
        fun c due => List.mem_append_left _ due
      have last : (⟨p, i⟩ : CallId) ∈ w.waking.due ++ [⟨p, i⟩] :=
        List.mem_append_right _ List.mem_cons_self
      split
      · exact ⟨enqueued, id, .inl last⟩
      · exact ⟨enqueued, fun _ => rfl, .inl last⟩
  · rename_i uncrowded
    exact ⟨fun _ => id, fun _ => rfl, .inr ⟨Bool.eq_false_of_not_eq_true uncrowded, rfl⟩⟩

/-- A call that gets the permit of another will be polled. -/
theorem returnPermit_heard (found : w.passes[p]? = some pass) (lineage : pass.lineage = [])
    (queue : ∀ permits, pass.permits = some permits → pass.Queued permits) :
    (∀ c ∈ w.waking.due, c ∈ (w.returnPermit p).waking.due) ∧
      (w.waking.again = true → (w.returnPermit p).waking.again = true) ∧
      ∀ j after, pass.returnPermit.calls[j]? = some after → pass.calls[j]? = some after ∨
        (⟨p, j⟩ ∈ (w.returnPermit p).waking.due ∨
          pass.returnPermit.isCrowded = false ∧ (w.returnPermit p).waking.again = true) := by
  obtain ⟨dispatcher, token, occasion, lineage, phase, calls, permits⟩ := pass
  unfold returnPermit Pass.returnPermit
  simp only [found]
  rcases permits with _ | ⟨free, _ | ⟨next, others⟩⟩
  · exact ⟨fun _ => id, id, fun _ _ => .inl⟩
  · exact ⟨fun _ => id, id, fun _ _ => .inl⟩
  · obtain ⟨waiter, at_next, -⟩ := (queue _ rfl).queued next List.mem_cons_self
    have first := passes_setPermits found ⟨free, others⟩
    have again : (w.setPermits p ⟨free, others⟩).passes[p]? = some _ :=
      first ▸ getElem?_set_of_some _ found
    have second := passes_setStatus again next .granted
    have here : ((w.setPermits p ⟨free, others⟩).setStatus p next .granted).passes[p]? = some _ :=
      second ▸ getElem?_set_of_some _ again
    have granted := (Pass.getElem?_setCall _ next next .granted).trans
      ((if_pos rfl).trans (congrArg (Option.map _) at_next))
    obtain ⟨due, still, heard⟩ := wake_heard here lineage granted rfl
    refine ⟨due, still, fun j after at_j => ?_⟩
    by_cases same : next = j
    · exact .inr (same ▸ heard)
    · have at_j := (Pass.getElem?_setCall ..).symm.trans at_j
      rw [if_neg same] at at_j
      exact .inl at_j

end World

namespace Solo
variable {s : Solo} {w w' : World} {pass pass' : Pass} {part : Part} {i : Nat} {call after : Call}

/-- If a call has less to do, and no other has more, there is less to do. -/
theorem toil_lt (at_part : s.parts[i]? = some part) (at_position : pass.calls[i]? = some call)
    (here : pass'.calls[i]? = some after) (own : part.toil after.status < part.toil call.status)
    (others : ∀ j after, i ≠ j → pass'.calls[j]? = some after → ∃ before,
      pass.calls[j]? = some before ∧ (after.status = before.status ∨
        before.status = .queued ∧ after.status = .granted)) : s.toil pass' < s.toil pass := by
  apply Finset.sum_lt_sum
  · intro j _
    unfold toilAt
    by_cases same : i = j
    · subst same
      rw [here, at_position, at_part]
      exact own.le
    · cases at_j : pass'.calls[j]? with
      | none => exact Nat.zero_le _
      | some after =>
        obtain ⟨before, at_before, became⟩ := others j after same at_j
        rw [at_before]
        cases s.parts[j]? with
        | none => exact le_rfl
        | some part =>
          dsimp only
          rcases became with equal | ⟨queued, granted⟩
          · rw [equal]
          · rw [queued, granted]
            exact Nat.le_succ _
  · refine ⟨i, Finset.mem_range.mpr (List.getElem?_eq_some_iff.mp at_part).1, ?_⟩
    unfold toilAt
    rw [here, at_position, at_part]
    exact own

theorem toil_setCall_lt (at_part : s.parts[i]? = some part)
    (at_position : pass.calls[i]? = some call) (permits : Option Permits) {status : Status}
    (less : part.toil status < part.toil call.status) :
    s.toil ({ pass with permits }.setCall i status) < s.toil pass := by
  have here : ({ pass with permits }.setCall i status).calls[i]? = some { call with status } := by
    rw [Pass.getElem?_setCall, if_pos rfl]
    exact congrArg (Option.map _) at_position
  refine toil_lt at_part at_position here less fun j after other at_j => ?_
  rw [Pass.getElem?_setCall, if_neg other] at at_j
  exact ⟨after, at_j, .inl rfl⟩

/-- Whoever is woken, less is to be done after something was done. -/
theorem effort_lt (less : s.toil pass' < s.toil pass) : s.effort w' pass' < s.effort w pass := by
  unfold effort
  have bit := Bool.toNat_le (!pass'.isCrowded && w'.waking.again)
  omega

theorem Underway.isCrowded_eq (u : s.Underway w pass) (u' : s.Underway w' pass') :
    pass'.isCrowded = pass.isCrowded := by
  unfold Pass.isCrowded
  rw [u.length_eq, u'.length_eq]

theorem Heard.mono (h : s.Heard w pass i) (crowd : pass'.isCrowded = pass.isCrowded)
    (due : ∀ c ∈ w.waking.due, c ∈ w'.waking.due)
    (again : w.waking.again = true → w'.waking.again = true) : s.Heard w' pass' i :=
  h.imp (due _) fun ⟨uncrowded, woken⟩ => ⟨crowd.trans uncrowded, again woken⟩

/-- While one call is polled, the others are heard as before. -/
theorem Attends.others (h : s.Attends w pass (some i)) (crowd : pass'.isCrowded = pass.isCrowded)
    (due : ∀ c ∈ w.waking.due, c ∈ w'.waking.due)
    (again : w.waking.again = true → w'.waking.again = true)
    (others : ∀ j after, i ≠ j → pass'.calls[j]? = some after →
      pass.calls[j]? = some after ∨ s.Heard w' pass' j) : s.Attends w' pass' (some i) := by
  intro j after at_j pressing other
  have other : i ≠ j := fun same => other (congrArg some same)
  rcases others j after other at_j with same | heard
  · exact (h j after same pressing fun equal => other (Option.some.inj equal)).mono crowd due again
  · exact heard

theorem Attends.setCall (h : s.Attends w pass (some i)) {permits : Option Permits}
    {status : Status} (crowd : ({ pass with permits }.setCall i status).isCrowded = pass.isCrowded)
    (waking : w'.waking = w.waking) :
    s.Attends w' ({ pass with permits }.setCall i status) (some i) := by
  refine h.others crowd (waking ▸ fun _ => id) (waking ▸ id) fun j after other at_j => .inl ?_
  rwa [Pass.getElem?_setCall, if_neg other] at at_j

/-- The call that was polled will be polled again if it would go on. -/
theorem Attends.left (h : s.Attends w pass (some i))
    (own : ∀ call, pass.calls[i]? = some call → call.status.isPressing = true → s.Heard w pass i) :
    s.Attends w pass none := by
  intro j call at_j pressing _
  by_cases same : i = j
  · subst same
    exact own call at_j pressing
  · exact h j call at_j pressing fun equal => same (Option.some.inj equal)

/-- The turn goes on without the call, or the pass is polled again. -/
theorem pause_going (u : s.Underway w pass) (attends : s.Attends w pass none)
    (i polled restless : Nat) :
    s.Going pass (Machine.pause ⟨⟨s.pass, polled, restless⟩, i⟩ [] w) ∧
      s.effort (Machine.pause ⟨⟨s.pass, polled, restless⟩, i⟩ [] w).world pass = s.effort w pass ∧
      s.rank pass (Machine.pause ⟨⟨s.pass, polled, restless⟩, i⟩ [] w) < 4 * s.dueOf w + 4 := by
  unfold Machine.pause
  simp only [u.found]
  split
  · rename_i crowded
    generalize (if w.waking.isDue (Frame.callId ⟨⟨s.pass, polled, restless⟩, i⟩) = true then 1
      else 0) = woken
    split
    · -- the turn is broken off
      rw [u.lineage]
      have heard : s.Attends (w.rouse []) pass none := by
        intro j call at_j pressing other
        exact (attends j call at_j pressing other).mono rfl (fun _ => id) fun _ => rfl
      refine ⟨.leaving (u.setWaking _) heard rfl, ?_, ?_⟩
      · simp [effort, crowded]
      · have same : s.dueOf (w.rouse []) = s.dueOf w := rfl
        simp only [rank, crowded, if_true, same]
        exact Nat.lt_succ_self _
    · refine ⟨.choosing u attends, rfl, ?_⟩
      simp only [rank]
      omega
  · refine ⟨.choosing u attends, rfl, ?_⟩
    simp only [rank]
    omega

section
variable {m : Machine} {polled restless : Nat} (u : s.Underway w' pass')
  (attends : s.Attends w' pass' (some i)) (at_position : pass'.calls[i]? = some after)
  (unfinished : after.status.isUnfinished = true) (less : s.toil pass' < s.toil pass)
include u attends at_position unfinished less

theorem stay_advances :
    s.Advances pass m (Machine.stay ⟨⟨s.pass, polled, restless⟩, i⟩ [] w') :=
  .going (.polling u attends at_position unfinished) (.inl (effort_lt less))

theorem yield_advances :
    s.Advances pass m (Machine.yield ⟨⟨s.pass, polled, restless⟩, i⟩ [] w') := by
  obtain ⟨due, again, heard⟩ := World.wake_heard u.found u.lineage at_position unfinished
  have woken : s.Attends (w'.wake ⟨s.pass, i⟩) pass' (some i) :=
    attends.others rfl due again fun j call _ at_j => .inl at_j
  obtain ⟨going, same, -⟩ :=
    pause_going (u.wake ⟨s.pass, i⟩) (woken.left fun _ _ _ => heard) i polled restless
  exact .going going (.inl (same ▸ effort_lt less))

end

/-- The call ends in the next tick. -/
theorem ending_advances {polled restless : Nat} {number : Nat} {await : Await} {rest : Script}
    (u : s.Underway w pass) (attends : s.Attends w pass (some i))
    (at_position : pass.calls[i]? = some call) (begun : call.status = .running number await rest)
    (silent : s.notes rest = []) {verdict : Verdict}
    (ends : rest.verdict s.occasion s.cancelled = verdict) :
    s.Advances pass ⟨w, .polling ⟨⟨s.pass, polled, restless⟩, i⟩ []⟩
      ⟨w, .ending verdict [⟨⟨s.pass, polled, restless⟩, i⟩]⟩ := by
  subst ends
  exact .going (.ending u attends at_position begun silent) (.inr ⟨rfl, Nat.lt_succ_self _⟩)

section
variable {polled restless : Nat} {number : Nat} {before : Await} {todo : Script}
  (u : s.Underway w pass) (attends : s.Attends w pass (some i))
  (at_position : pass.calls[i]? = some call)
  (begun : call.status = .running number before todo)
include u attends at_position begun

/-- What is known of a running call after it went on. -/
theorem proceed_going {after : Await} {rest : Script} (goes_on : after = .ready ∨ ∃ n, after = .turns n)
    (independent : rest.Independent)
    (passes : w'.passes = w.passes) (handlers : w'.handlers = w.handlers)
    (waking : w'.waking = w.waking) (only : World.Only call.handler w w')
    (told : w'.tracesOf call.handler ++ s.notes rest = w.tracesOf call.handler ++ s.notes todo)
    (verdict : rest.verdict s.occasion s.cancelled = todo.verdict s.occasion s.cancelled)
    (less : after.toil + rest.toil < before.toil + todo.toil) :
    s.Underway (w'.setStatus s.pass i (.running number after rest))
        (pass.setCall i (.running number after rest)) ∧
      s.Attends (w'.setStatus s.pass i (.running number after rest))
        (pass.setCall i (.running number after rest)) (some i) ∧
      (pass.setCall i (.running number after rest)).calls[i]? =
        some { call with status := .running number after rest } ∧
      s.toil (pass.setCall i (.running number after rest)) < s.toil pass := by
  obtain ⟨part, at_part, -⟩ := u.part_of at_position
  have u' := u.proceed at_position begun passes goes_on independent only handlers told verdict
  refine ⟨u', attends.setCall (u.isCrowded_eq u') waking, ?_, ?_⟩
  · rw [Pass.getElem?_setCall, if_pos rfl, at_position]
    rfl
  · refine toil_setCall_lt at_part at_position pass.permits ?_
    rw [begun]
    exact Nat.succ_lt_succ less

end

/-- A running call takes the next step of its script. -/
theorem step_advances {polled restless : Nat} {number : Nat} {step : Step} {rest : Script}
    (u : s.Underway w pass) (attends : s.Attends w pass (some i))
    (at_position : pass.calls[i]? = some call)
    (begun : call.status = .running number .ready (step :: rest)) :
    s.Advances pass ⟨w, .polling ⟨⟨s.pass, polled, restless⟩, i⟩ []⟩
      (Machine.afterStep ⟨⟨s.pass, polled, restless⟩, i⟩ [] number rest
        (w.take s.pass i pass call.handler step)) := by
  obtain ⟨part, at_part, -, -, fits⟩ := u.part_of at_position
  rw [begun] at fits
  obtain ⟨-, -, independent, -⟩ := fits.agrees
  have own : step.isIndependent = true := independent step List.mem_cons_self
  have others : Script.Independent rest := fun x hx => independent x (List.mem_cons_of_mem _ hx)
  rw [World.take_independent w s.pass i pass call.handler own, u.isCancelled, u.occasion]
  obtain ⟨passes, handlers, waking⟩ :=
    w.tells_frame s.pass i call.handler (step.notes s.cancelled)
  have goes_on : (∀ verdict, step.effect s.occasion s.cancelled ≠ .finish verdict) →
      (w.tells s.pass i call.handler (step.notes s.cancelled)).tracesOf call.handler ++
        s.notes rest = w.tracesOf call.handler ++ s.notes (step :: rest) := by
    intro goes_on
    rw [World.tracesOf_tells, notes, notes, Script.notes_of_goes_on rest goes_on, List.map_append,
      List.append_assoc]
  rcases Step.effect_cases own s.occasion s.cancelled with ready | ⟨n, gives_way, most⟩ |
    ⟨verdict, finish, silent⟩
  · rw [ready]
    obtain ⟨u', attends', at_position', less⟩ := proceed_going u attends at_position begun
      (.inl rfl) others passes handlers waking (.tells ..) (goes_on (by simp [ready]))
      (Script.verdict_of_goes_on rest (by simp [ready])).symm
      (by simpa [Await.toil] using step.toil_pos)
    exact stay_advances u' attends' at_position' rfl less
  · rw [gives_way]
    obtain ⟨u', attends', at_position', less⟩ := proceed_going u attends at_position begun
      (.inr ⟨n, rfl⟩) others passes handlers waking (.tells ..) (goes_on (by simp [gives_way]))
      (Script.verdict_of_goes_on rest (by simp [gives_way])).symm
      (by simpa [Await.toil] using most)
    exact yield_advances u' attends' at_position' rfl less
  · rw [finish, silent]
    refine ending_advances u attends at_position begun ?_ (Script.verdict_of_finish rest finish)
    rw [notes, Script.notes_of_finish rest finish, silent]
    rfl

/-- A running call is polled. -/
theorem visitRunning_advances {polled restless : Nat} {number : Nat} {await : Await} {rest : Script}
    (u : s.Underway w pass) (attends : s.Attends w pass (some i))
    (at_position : pass.calls[i]? = some call) (begun : call.status = .running number await rest) :
    s.Advances pass ⟨w, .polling ⟨⟨s.pass, polled, restless⟩, i⟩ []⟩
      (Machine.visitRunning w ⟨⟨s.pass, polled, restless⟩, i⟩ [] pass call.handler number await
        rest) := by
  obtain ⟨part, at_part, -, -, fits⟩ := u.part_of at_position
  rw [begun] at fits
  obtain ⟨-, waits, independent, -⟩ := fits.agrees
  have same : World.Only call.handler w w := .of_eq rfl rfl rfl rfl
  rcases waits with rfl | ⟨turns, rfl⟩
  · cases rest with
    | nil => exact ending_advances u attends at_position begun rfl rfl
    | cons step rest => exact step_advances u attends at_position begun
  · cases turns with
    | zero =>
      obtain ⟨u', attends', at_position', less⟩ := proceed_going u attends at_position begun
        (.inl rfl) independent rfl rfl rfl same rfl rfl (by simp [Await.toil])
      exact stay_advances u' attends' at_position' rfl less
    | succ n =>
      obtain ⟨u', attends', at_position', less⟩ := proceed_going u attends at_position begun
        (.inr ⟨n, rfl⟩) independent rfl rfl rfl same rfl rfl (by simp [Await.toil])
      exact yield_advances u' attends' at_position' rfl less

/-- A call begins. -/
theorem begin_advances {polled restless : Nat} {admitted : World} (u : s.Underway w pass)
    (attends : s.Attends w pass (some i)) (at_position : pass.calls[i]? = some call)
    (admits : w.Admits s.pass pass call admitted) :
    s.Advances pass ⟨w, .polling ⟨⟨s.pass, polled, restless⟩, i⟩ []⟩
      (Machine.stay ⟨⟨s.pass, polled, restless⟩, i⟩ [] (admitted.beginCall s.pass i pass call)) := by
  obtain ⟨permits, part, at_part, u'⟩ := u.begin at_position admits
  have at_position' : ({ pass with permits }.setCall i
      (.running part.origin.begun .ready part.script)).calls[i]? =
        some { call with status := .running part.origin.begun .ready part.script } := by
    rw [Pass.getElem?_setCall, if_pos rfl]
    exact congrArg (Option.map _) at_position
  have less : part.toil (.running part.origin.begun .ready part.script) <
      part.toil call.status := by
    cases admits with
    | freely idle unlimited => simp [idle, Part.toil, Await.toil]
    | taking idle limited free => simp [idle, Part.toil, Await.toil]
    | granted granted => simp [granted, Part.toil, Await.toil]
  exact stay_advances u' (attends.setCall (u.isCrowded_eq u') (admits.waking_beginCall i))
    at_position' rfl (toil_setCall_lt at_part at_position permits less)

/-- A call that finds no permit has to wait for one. -/
theorem queue_advances {polled restless : Nat} {permits : Permits} (u : s.Underway w pass)
    (attends : s.Attends w pass (some i)) (at_position : pass.calls[i]? = some call)
    (idle : call.status = .idle) (limited : pass.permits = some permits)
    (short : permits.take? = none) :
    s.Advances pass ⟨w, .polling ⟨⟨s.pass, polled, restless⟩, i⟩ []⟩
      (Machine.pause ⟨⟨s.pass, polled, restless⟩, i⟩ []
        ((w.setPermits s.pass (permits.enqueue i)).setStatus s.pass i .queued)) := by
  obtain ⟨part, at_part, -⟩ := u.part_of at_position
  have u' := u.queue at_position idle limited short
  have attends' := attends.setCall (u.isCrowded_eq u') rfl
  have queued := attends'.left fun after here pressing => by
    rw [Pass.getElem?_setCall, if_pos rfl] at here
    obtain ⟨old, -, rfl⟩ := Option.map_eq_some_iff.mp here
    cases pressing
  have less : part.toil .queued < part.toil call.status := by
    rw [idle]
    exact Nat.lt_succ_self _
  obtain ⟨going, same, -⟩ := pause_going u' queued i polled restless
  exact .going going (.inl (same ▸ effort_lt (toil_setCall_lt at_part at_position _ less)))

/-- A call of the pass is polled. -/
theorem visit_advances {polled restless : Nat} (u : s.Underway w pass)
    (attends : s.Attends w pass (some i)) (at_position : pass.calls[i]? = some call)
    (unfinished : call.status.isUnfinished = true) :
    s.Advances pass ⟨w, .polling ⟨⟨s.pass, polled, restless⟩, i⟩ []⟩
      (Machine.visit w ⟨⟨s.pass, polled, restless⟩, i⟩ [] pass call) := by
  unfold Machine.visit
  cases status : call.status with
  | idle =>
    cases limited : pass.permits with
    | none => exact begin_advances u attends at_position (.freely status limited)
    | some permits =>
      cases taken : permits.take? with
      | some left =>
        dsimp only
        rw [taken]
        exact begin_advances u attends at_position (.taking status limited taken)
      | none =>
        dsimp only
        rw [taken]
        exact queue_advances u attends at_position status limited taken
  | queued =>
    -- nothing was to be done, but the call is not due any more
    have waits := attends.left fun after here pressing => by
      rw [at_position, Option.some.injEq] at here
      rw [← here, status] at pressing
      cases pressing
    obtain ⟨going, same, less⟩ := pause_going u waits i polled restless
    exact .going going (.inr ⟨same, less⟩)
  | granted => exact begin_advances u attends at_position (.granted status)
  | running number await rest => exact visitRunning_advances u attends at_position status
  | finished error => rw [status] at unfinished; cases unfinished
  | abandoned => rw [status] at unfinished; cases unfinished

/-- Some call would go on if any is not over. -/
theorem Underway.pressing (u : s.Underway w pass) (unfinished : ¬ pass.isOver = true) :
    ∃ (i : Nat) (call : Call), pass.calls[i]? = some call ∧ call.status.isPressing = true := by
  by_contra none_presses
  have still : ∀ call ∈ pass.calls, call.status.isPressing = false := by
    intro call hc
    obtain ⟨i, at_position⟩ := List.getElem?_of_mem hc
    exact Bool.eq_false_of_not_eq_true fun presses => none_presses ⟨i, call, at_position, presses⟩
  have none_runs : pass.count Status.isRunning = 0 := by
    refine Pass.count_eq_zero fun call hc => ?_
    have not_pressing := still call hc
    cases status : call.status <;> simp_all [Status.isPressing, Status.isRunning]
  have saturated := u.metered.saturated (u.sound.whole u.phase) fun call hc => by
    have not_pressing := still call hc
    cases status : call.status <;> simp_all [Status.isPressing, Status.isEager]
  refine unfinished ((pass.isOver_iff).mpr fun call hc => ?_)
  have none_left : pass.count Status.isUnfinished = 0 := by
    by_contra some_left
    exact saturated.not_stuck some_left none_runs
  simpa using (List.countP_eq_zero.mp none_left) call hc

/-- When all calls are over, they are as was foreseen. -/
theorem Underway.calls_eq (u : s.Underway w pass) (is_over : pass.isOver = true) :
    pass.calls = s.calls := by
  apply List.ext_getElem?
  intro i
  unfold Solo.calls
  rw [List.getElem?_map]
  cases at_position : pass.calls[i]? with
  | none =>
    have outside : s.parts[i]? = none := by
      rw [List.getElem?_eq_none_iff, ← u.length_eq, ← List.getElem?_eq_none_iff]
      exact at_position
    rw [outside]
    rfl
  | some call =>
    obtain ⟨part, at_part, handler_eq, name_eq, fits⟩ := u.part_of at_position
    have finished := (pass.isOver_iff.mp is_over) call (List.mem_of_getElem? at_position)
    obtain ⟨handler, name, status⟩ := call
    cases status with
    | finished error =>
      have same : error = (s.verdict part).error := fits.agrees
      rw [at_part, Option.map_some, same]
      cases handler_eq
      cases name_eq
      rfl
    | abandoned => exact fits.agrees.elim
    | _ => cases finished

/-- The pass is closed when all calls are over. -/
theorem Underway.completed (u : s.Underway w pass) (is_over : pass.isOver = true) :
    pass.error? = s.error? ∧ s.Completed (w.close s.pass (.completed pass.error?)) := by
  have calls := u.calls_eq is_over
  have same : pass.error? = s.error? := by
    unfold error? Pass.error? Pass.failures
    rw [calls]
  have closed := World.close_eq u.found (.completed pass.error?)
  have traces : ∀ h, (w.close s.pass (.completed pass.error?)).tracesOf h = w.tracesOf h := by
    intro h
    rw [closed, World.tracesOf_record]
    exact List.append_nil _
  have handlers : (w.close s.pass (.completed pass.error?)).handlers = w.handlers := by
    rw [closed]
    rfl
  have over_of : ∀ part ∈ s.parts, s.Fits w part (.finished (s.verdict part).error) := by
    intro part hp
    obtain ⟨i, at_part⟩ := List.getElem?_of_mem hp
    refine u.fits i { handler := part.handler, name := part.name, status := _ } part ?_ at_part
    rw [calls, Solo.calls, List.getElem?_map, at_part]
    rfl
  refine ⟨same, ⟨pass.permits, ?_⟩, ?_, ?_, ?_, ?_⟩
  · rw [World.passes_close u.found, World.getElem?_set_of_some _ u.found, ← u.outline, ← calls,
      ← same]
    rfl
  · rw [closed]
    exact u.dispatchers
  · intro part hp
    rw [handlers, (over_of part hp).found]
    rfl
  · intro part hp
    rw [traces]
    simpa [untold] using (over_of part hp).told
  · intro h outside
    rw [handlers, traces]
    exact u.others h outside

/-- With nothing due, the pass is over or was woken in its turn. -/
theorem endTurn_advances {polled restless : Nat} (u : s.Underway w pass)
    (attends : s.Attends w pass none) (none_due : ∀ c ∈ w.waking.due, c.pass ≠ s.pass) :
    s.Advances pass ⟨w, .choosing ⟨s.pass, polled, restless⟩ []⟩
      (Machine.endTurn w s.pass []) := by
  unfold Machine.endTurn
  simp only [u.found]
  split
  · rename_i is_over
    obtain ⟨same, completed⟩ := u.completed is_over
    rw [same] at completed ⊢
    exact .settled completed
  · rename_i unfinished
    obtain ⟨i, call, at_position, pressing⟩ := u.pressing unfinished
    rcases attends i call at_position pressing nofun with due | ⟨uncrowded, again⟩
    · exact absurd rfl (none_due _ due)
    · refine .going (.leaving u attends again) (.inr ⟨rfl, ?_⟩)
      simp only [rank, uncrowded]
      exact Nat.succ_pos _

/-- When a due call is taken, the others are heard as before. -/
theorem Attends.take {left : Waking} (h : s.Attends w pass none)
    (next : w.waking.next? s.pass = some (⟨s.pass, i⟩, left)) :
    s.Attends (w.setWaking left) pass (some i) := by
  cases Waking.eq_of_next? next
  intro j call at_j pressing other
  have apart : (⟨s.pass, j⟩ : CallId) ≠ ⟨s.pass, i⟩ := by
    rintro ⟨⟩
    exact other rfl
  exact (h j call at_j pressing nofun).imp_left (List.mem_erase_of_ne apart).mpr

theorem dueOf_take_lt {left : Waking}
    (next : w.waking.next? s.pass = some (⟨s.pass, i⟩, left)) :
    s.dueOf (w.setWaking left) < s.dueOf w := by
  obtain ⟨due, -⟩ := Waking.mem_due_of_next? next
  cases Waking.eq_of_next? next
  have counted : 0 < s.dueOf w := List.countP_pos_iff.mpr ⟨_, due, by simp⟩
  refine (List.countP_erase ..).trans_lt ?_
  rw [if_pos ⟨due, by simp⟩]
  exact Nat.sub_lt counted Nat.one_pos

/-- The pass takes the next call that is due, or ends its turn. -/
theorem choose_advances {polled restless : Nat} (u : s.Underway w pass)
    (attends : s.Attends w pass none) :
    s.Advances pass ⟨w, .choosing ⟨s.pass, polled, restless⟩ []⟩
      (Machine.choose w ⟨s.pass, polled, restless⟩ []) := by
  unfold Machine.choose
  cases next : w.waking.next? s.pass with
  | none => exact endTurn_advances u attends ((Waking.next?_eq_none_iff ..).mp next)
  | some found =>
    obtain ⟨⟨p, i⟩, left⟩ := found
    cases (Waking.mem_due_of_next? next).2
    have others := attends.take next
    have fewer := dueOf_take_lt next
    have same : s.effort (w.setWaking left) pass = s.effort w pass := by
      rw [Waking.eq_of_next? next]
      rfl
    dsimp only
    rw [World.call?_of_found u.found]
    cases at_position : pass.calls[i]? with
    | none =>
      have rest := others.left fun call here => by rw [at_position] at here; cases here
      refine .going (.choosing (u.setWaking left) rest) (.inr ⟨same, ?_⟩)
      simp only [rank]
      omega
    | some call =>
      dsimp only
      split
      · rename_i unfinished
        refine .going (.polling (u.setWaking left) others at_position unfinished)
          (.inr ⟨same, ?_⟩)
        simp only [rank]
        omega
      · rename_i finished
        have rest := others.left fun other here pressing => by
          rw [at_position, Option.some.injEq] at here
          exact absurd (Status.isUnfinished_of_isPressing (here ▸ pressing)) finished
        refine .going (.choosing (u.setWaking left) rest) (.inr ⟨same, ?_⟩)
        simp only [rank]
        omega

/-- The end of a call begins the turn anew. -/
theorem retire_advances {polled restless : Nat} {number : Nat} {await : Await} {rest : Script}
    {verdict : Verdict} (u : s.Underway w pass) (attends : s.Attends w pass (some i))
    (at_position : pass.calls[i]? = some call) (begun : call.status = .running number await rest)
    (passes : w'.passes = w.passes) (waking : w'.waking = w.waking) {error : Option CallError}
    (u' : s.Underway (w'.retire s.pass i call.handler error) (pass.retire i error)) :
    s.Advances pass ⟨w, .ending verdict [⟨⟨s.pass, polled, restless⟩, i⟩]⟩
      (Machine.beginTurn s.pass [] (w'.retire s.pass i call.handler error)) := by
  obtain ⟨part, at_part, -⟩ := u.part_of at_position
  have running : call.status.isRunning = true := by rw [begun]; rfl
  obtain ⟨-, last, at_last, finished⟩ :=
    Pass.retire_settles u.sound u.phase at_position running error
  have found : ((w'.setStatus s.pass i (.finished error)).release call.handler).passes[s.pass]? =
      some (pass.setCall i (.finished error)) := by
    rw [World.passes_release, World.passes_setStatus (passes ▸ u.found), passes]
    exact World.getElem?_set_of_some _ u.found
  have still : (pass.setCall i (.finished error)).Sound :=
    u.sound.finish u.phase at_position running error
  obtain ⟨due, again, heard⟩ := World.returnPermit_heard found u.lineage (still.queue u.phase)
  rw [World.waking_release] at due again
  have others := attends.others (u.isCrowded_eq u') (fun c hc => due c (waking ▸ hc))
    (fun woken => again (waking ▸ woken)) fun j after other at_j => by
      refine (heard j after at_j).imp (fun same => ?_) id
      rwa [Pass.getElem?_setCall, if_neg other] at same
  have rest_heard : s.Attends (w'.retire s.pass i call.handler error) (pass.retire i error) none :=
    others.left fun after here pressing => by
      rw [at_last, Option.some.injEq] at here
      rw [← here, finished] at pressing
      cases pressing
  have less : s.toil (pass.retire i error) < s.toil pass := by
    refine toil_lt at_part at_position at_last ?_ fun j after other at_j =>
      Pass.retire_other other error (u.sound.queue u.phase) at_j
    rw [finished, begun]
    exact Nat.succ_pos _
  exact .going (.choosing (u'.setWaking _) rest_heard) (.inl (effort_lt less))

/-- A call of the pass ends. -/
theorem conclude_advances {polled restless : Nat} {number : Nat} {await : Await} {rest : Script}
    (u : s.Underway w pass) (attends : s.Attends w pass (some i))
    (at_position : pass.calls[i]? = some call) (begun : call.status = .running number await rest)
    (silent : s.notes rest = []) :
    s.Advances pass
      ⟨w, .ending (rest.verdict s.occasion s.cancelled) [⟨⟨s.pass, polled, restless⟩, i⟩]⟩
      (Machine.conclude w (rest.verdict s.occasion s.cancelled)
        [⟨⟨s.pass, polled, restless⟩, i⟩]) := by
  obtain ⟨part, at_part, -, -, fits⟩ := u.part_of at_position
  rw [begun] at fits
  obtain ⟨-, -, -, same⟩ := fits.agrees
  have own : ∀ other, s.parts[i]? = some other → other = part := by
    intro other at_other
    rw [at_part, Option.some.injEq] at at_other
    exact at_other.symm
  unfold Machine.conclude
  simp only [u.found, World.call?_of_found u.found, at_position, u.settings]
  cases verdict : rest.verdict s.occasion s.cancelled with
  | returned error =>
    have ends : ∀ other, s.parts[i]? = some other → s.verdict other = .returned error := by
      intro other at_other
      rw [own other at_other, ← same, verdict]
    have u' := u.returnCall at_position begun silent ends
    unfold World.returnCall at u'
    exact retire_advances u attends at_position begun (by rfl) (by rfl) u'
  | panicked payload =>
    have ends : ∀ other, s.parts[i]? = some other → s.verdict other = .panicked payload := by
      intro other at_other
      rw [own other at_other, ← same, verdict]
    have isolated : s.settings.isolatePanics = true := by
      refine s.contained.resolve_right fun none_panics => ?_
      obtain ⟨error, returns⟩ := none_panics part (List.mem_of_getElem? at_part)
      have panics := ends part at_part
      unfold Solo.verdict at panics
      rw [Solo.cancelled, returns] at panics
      cases panics
    dsimp only
    rw [if_pos isolated]
    have u' := u.catchPanic at_position begun silent ends
    unfold World.catchPanic at u'
    exact retire_advances u attends at_position begun (by rfl) (by rfl) u'

/-- The pass is polled. -/
theorem enter_advances (u : s.Underway w pass)
    (attends : pass.isCrowded = true → s.Attends w pass none) :
    s.Advances pass ⟨w, .entering s.pass []⟩ (Machine.enter w s.pass []) := by
  unfold Machine.enter
  simp only [u.found, u.phase]
  split
  · rename_i crowded
    refine .going (.choosing (u.setWaking _) (attends crowded)) (.inr ⟨rfl, ?_⟩)
    show 4 * s.dueOf w + 1 < 4 * (s.dueOf w + if pass.isCrowded then 0 else _) + 2
    rw [if_pos crowded]
    exact Nat.lt_succ_self _
  · rename_i uncrowded
    -- all calls that are not over become due
    have due : s.Attends (w.makeDue s.pass pass.unfinished) pass none := by
      intro i call at_position pressing _
      refine .inl (List.mem_append_right _ (List.mem_map.mpr ⟨i, ?_, rfl⟩))
      refine List.mem_filter.mpr ⟨List.mem_range.mpr ?_, ?_⟩
      · exact (List.getElem?_eq_some_iff.mp at_position).1
      · simp only [at_position]
        exact Status.isUnfinished_of_isPressing pressing
    refine .going (.choosing ((u.setWaking _).setWaking _) due) (.inr ⟨rfl, ?_⟩)
    have more : s.dueOf (w.makeDue s.pass pass.unfinished) ≤
        s.dueOf w + pass.calls.length := by
      refine (List.countP_append ..).le.trans (Nat.add_le_add_left ?_ _)
      refine List.countP_le_length.trans ?_
      rw [List.length_map]
      exact (List.length_filter_le ..).trans List.length_range.le
    show 4 * s.dueOf (w.makeDue s.pass pass.unfinished) + 1 <
      4 * (s.dueOf w + if pass.isCrowded then 0 else _) + 2
    rw [if_neg uncrowded]
    omega

/-- The pass was woken in its turn, and is polled again. -/
theorem leave_advances (u : s.Underway w pass) (attends : s.Attends w pass none)
    (again : w.waking.again = true) :
    s.Advances pass ⟨w, .leaving s.pass []⟩ (Machine.leave w s.pass []) := by
  unfold Machine.leave
  simp only [again, if_true]
  unfold Machine.toPoll
  refine .going (.entering (u.setWaking _) fun crowded i call at_position pressing other => ?_) ?_
  · refine (attends i call at_position pressing other).imp_right fun ⟨uncrowded, _⟩ => ?_
    rw [crowded] at uncrowded
    cases uncrowded
  · cases crowded : pass.isCrowded with
    | true =>
      refine .inr ⟨by simp [effort, crowded], ?_⟩
      simp only [rank, crowded, if_true]
      exact Nat.lt_succ_self _
    | false => exact .inl (by simp [effort, crowded, again, World.setWaking])

/-- In every tick of its poll, the pass comes nearer to its end. -/
theorem Going.advances {m : Machine} (going : s.Going pass m) : s.Advances pass m m.tick := by
  cases going with
  | entering u attends => exact enter_advances u attends
  | choosing u attends => exact choose_advances u attends
  | polling u attends at_position unfinished =>
    unfold Machine.tick Machine.poll
    simp only [u.found, World.call?_of_found u.found, at_position]
    exact visit_advances u attends at_position unfinished
  | leaving u attends again => exact leave_advances u attends again
  | ending u attends at_position begun silent =>
    exact conclude_advances u attends at_position begun silent

theorem Going.isSettled {m : Machine} (going : s.Going pass m) : m.isSettled = false := by
  cases going <;> rfl

/-- The poll of a pass that is alone goes on until the pass is over. -/
theorem Going.settles {pass : Pass} {m : Machine} (going : s.Going pass m) :
    ∃ fuel after, Machine.settle fuel m = ⟨after, .settled (some (.completed s.error?))⟩ ∧
      s.Completed after := by
  have next : ∀ fuel, Machine.settle (fuel + 1) m = Machine.settle fuel m.tick := by
    intro fuel
    rw [Machine.settle, going.isSettled]
    rfl
  generalize ticked : m.tick = m' at next
  cases ticked ▸ going.advances with
  | settled completed => exact ⟨1, _, next 0, completed⟩
  | going later less =>
    obtain ⟨fuel, after, settles, completed⟩ := later.settles
    exact ⟨fuel + 1, after, (next fuel).trans settles, completed⟩
termination_by (s.effort m.world pass, s.rank pass m)
decreasing_by exact Prod.lex_def.mpr less

end Solo
end Fanout
