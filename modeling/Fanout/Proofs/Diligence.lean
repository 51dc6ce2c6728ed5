import Fanout.Proofs.Metering
import Fanout.Proofs.Rousing
import Fanout.Proofs.Waiting

/-! Polls are diligent: no tick and no other move lets down a call that could go on, or an inner
pass that is to be polled. Each part of a tick is shown to keep this, in a world that may be
reached. -/
namespace Fanout

/-- The pass that is polled from outside, given with the frames around the innermost one. -/
def bottom : PassId → List Frame → PassId
  | p, [] => p
  | _, frame :: outer => bottom frame.pass outer

/-- The frames around a pass are in the middle of their turns. -/
def around (p : PassId) (outer : List Frame) : Focus where
  outermost := some (bottom p outer)
  turning := outer.map fun frame => frame.pass

/-- The pass is in the middle of its turn, too. -/
def inTurn (p : PassId) (outer : List Frame) : Focus :=
  { around p outer with turning := p :: (around p outer).turning }

def innermost (frames : List Frame) : Option CallId := frames.head?.map Frame.callId

def visiting (frame : Frame) (outer : List Frame) : Focus :=
  { inTurn frame.pass outer with polls := some frame.callId }

def Control.focus : Control → Focus
  | entering p outer => { around p outer with enters := some p }
  | choosing turn outer => inTurn turn.pass outer
  | polling frame outer => visiting frame outer
  | leaving p outer => around p outer
  | ending _ (frame :: outer) => inTurn frame.pass outer
  | ending _ [] => {}
  | settled _ => {}

/-- The call that is about to end. -/
def Control.ended : Control → Option CallId
  | ending _ frames => innermost frames
  | _ => none

/-- Whoever is to be polled will be, and calls and passes know of each other. -/
structure World.Heeds (w : World) (ended : Option CallId) (focus : Focus) : Prop where
  paired : Paired w.passes ended
  attentive : (w.scene focus).Attentive

def IsPending (passes : List Pass) (p : PassId) (i : Nat) : Prop :=
  ∃ pass call, passes[p]? = some pass ∧ pass.calls[i]? = some call ∧
    call.status.isUnfinished = true

namespace Machine

/-- What is polled can be polled, and what comes out of a pass is a panic. -/
def Ready (m : Machine) : Prop :=
  match m.control with
  | .polling frame _ => IsPending m.world.passes frame.pass frame.call
  | .ending verdict [] => ∃ payload, verdict = .panicked payload
  | _ => True

structure Diligent (m : Machine) : Prop where
  heeds : m.world.Heeds m.control.ended m.control.focus
  ready : m.Ready

end Machine

namespace World
variable {w w' : World} {ended ended' : Option CallId} {focus : Focus}

namespace Heeds

theorem calm (h : w.Heeds ended focus) (waking : w'.waking = w.waking)
    (paired : Paired w'.passes ended') (calms : Calms w.passes w'.passes) :
    w'.Heeds ended' focus := by
  refine ⟨paired, ?_⟩
  show Scene.Attentive ⟨w'.passes, w'.waking, focus⟩
  rw [waking]
  exact h.attentive.calm calms

theorem rouses (h : w.Heeds ended focus) (rouses : (w.scene focus).Rouses (w'.scene focus)) :
    w'.Heeds ended focus := by
  have same : w'.passes = w.passes := rouses.passes
  exact ⟨same ▸ h.paired, rouses.attentive h.attentive⟩

end Heeds

/-- A call that has raised no pass under way is carried on. -/
theorem Heeds.setCall (h : w.Heeds ended focus) {p : PassId} {i : Nat} {pass new : Pass}
    {call : Call} (call_of : w.IsCall p i pass call) (passes : w'.passes = w.passes.set p new)
    (waking : w'.waking = w.waking) (phase : new.phase = pass.phase)
    (lineage : new.lineage = pass.lineage) {status : Status}
    (calls : new.calls = (pass.setCall i status).calls) (not_eager : status.isEager = false)
    (alone : Alone w.passes ⟨p, i⟩) (only : ∀ other, ended = some other → other = ⟨p, i⟩)
    (waits : ∀ number q propagate rest, status = .running number (.pass q propagate) rest →
      IsOpen w.passes q) : w'.Heeds none focus := by
  have paired :=
    h.paired.setCall call_of.found call_of.running phase lineage calls alone only waits
  exact h.calm waking (passes ▸ paired)
    (passes ▸ .setCall call_of.found lineage phase calls not_eager)

theorem IsCall.not_awaits {p : PassId} {i : Nat} {pass : Pass} {call : Call}
    (call_of : w.IsCall p i pass call)
    (other : ∀ number q propagate rest, call.status ≠ .running number (.pass q propagate) rest)
    (q : PassId) : ¬ pass.Awaits i q := by
  rintro ⟨c, number, propagate, rest, at_position, waits⟩
  rw [call_of.at_position, Option.some.injEq] at at_position
  exact other number q propagate rest (at_position ▸ waits)

theorem IsCall.setCall {p : PassId} {i : Nat} {pass new : Pass} {call : Call}
    (call_of : w.IsCall p i pass call) (passes : w'.passes = w.passes.set p new)
    (phase : new.phase = pass.phase) {status : Status}
    (calls : new.calls = (pass.setCall i status).calls) :
    w'.IsCall p i new { call with status } := by
  refine ⟨passes ▸ getElem?_set_of_some _ call_of.found, phase.trans call_of.running, ?_⟩
  rw [calls, Pass.getElem?_setCall, if_pos rfl, call_of.at_position]
  rfl

theorem IsCall.setStatus {p : PassId} {i : Nat} {pass : Pass} {call : Call}
    (call_of : w.IsCall p i pass call) (status : Status) :
    (w.setStatus p i status).IsCall p i (pass.setCall i status) { call with status } :=
  call_of.setCall (passes_setStatus call_of.found i status) rfl rfl

theorem rouses_await (w : World) (focus : Focus) (call : CallId) (token : Token) (await : Await) :
    (w.scene focus).Rouses ((w.await call token await).scene focus) := by
  unfold World.await Waking.await
  split
  · split <;> exact ⟨rfl, rfl, id, fun _ => id, fun _ => .inl, fun _ => .inl⟩
  · exact .refl _

theorem Reached.sound {w : World} (reached : w.Reached) (p : PassId) (pass : Pass)
    (found : w.passes[p]? = some pass) : pass.Sound := reached.recorded.sound p pass found

end World

namespace Machine
open World
variable {w : World} {p : PassId} {frame : Frame} {outer : List Frame}

theorem pause_diligent (reached : w.Reached) (turning : Turning w.passes frame.pass outer)
    (h : w.Heeds none (inTurn frame.pass outer)) : (pause frame outer w).Diligent := by
  obtain ⟨pass, found, running⟩ := turning.running
  have runs : Runs w.passes frame.pass pass.lineage := ⟨pass, found, running, rfl⟩
  have descending := reached.linked.descending
  have crowded : ∀ turn : Turn, turn.pass = frame.pass → Diligent
      (if breaksOff pass turn then ⟨w.rouse pass.lineage, .leaving frame.pass outer⟩
        else ⟨w, .choosing turn outer⟩) := by
    intro turn same
    split
    · obtain ⟨rouses, seen⟩ :=
        rouse_pass h.paired.attended descending h.attentive.toOrderly runs
      have roused := h.rouses rouses
      refine ⟨⟨roused.paired, roused.attentive.leave roused.paired.attended rfl ?_⟩, trivial⟩
      intro callers runs'
      rw [passes_rouse] at runs'
      obtain rfl := runs.unique runs'
      have apart : ∀ call ∈ pass.lineage, call.pass ≠ frame.pass :=
        fun call hc => (descending _ _ runs call hc).ne
      exact .inr (Scene.Comes.of_turn apart (seen.comes _))
    · rw [← same] at h
      exact ⟨h, trivial⟩
  unfold pause
  simp only [found]
  split
  · exact crowded _ rfl
  · exact ⟨h, trivial⟩

section
variable {pass : Pass} {call : Call} (reached : w.Reached)
  (turning : Turning w.passes frame.pass outer) (h : w.Heeds none (visiting frame outer))
  (call_of : w.IsCall frame.pass frame.call pass call)

/-- On a call that cannot go on by itself, only the pass relies that it waits for. -/
theorem relied_by_inner (attended : Attended w.passes)
    (call_of : w.IsCall frame.pass frame.call pass call) (not_eager : call.status.isEager = false)
    {inner : Option PassId} {callers : List CallId}
    (wants : Wants w.passes inner frame.callId callers) :
    ∃ q, inner = some q ∧ pass.Awaits frame.call q := by
  obtain ⟨c, at_position, -, eager | waits⟩ := wants.status attended call_of.found
  · have same : pass.calls[frame.call]? = some c := at_position
    rw [call_of.at_position, Option.some.injEq] at same
    rw [← same, not_eager] at eager
    cases eager
  · exact waits

/-- Nobody relies on a call that cannot go on, and waits for no pass. -/
theorem pass_by_call (h : w.Heeds none (visiting frame outer))
    (call_of : w.IsCall frame.pass frame.call pass call)
    (not_eager : call.status.isEager = false) (not_waiting : ∀ q, ¬ pass.Awaits frame.call q) :
    w.Heeds none (inTurn frame.pass outer) := by
  refine ⟨h.paired, h.attentive.pass_by h.paired.attended rfl fun inner callers wants => ?_⟩
  obtain ⟨q, -, waits⟩ := relied_by_inner h.paired.attended call_of not_eager wants
  exact not_waiting q waits

theorem end_diligent (h : w.Heeds none (visiting frame outer))
    (call_of : w.IsCall frame.pass frame.call pass call)
    (not_eager : call.status.isEager = false) (not_waiting : ∀ q, ¬ pass.Awaits frame.call q)
    (verdict : Verdict) : Diligent ⟨w, .ending verdict (frame :: outer)⟩ := by
  have passed := pass_by_call h call_of not_eager not_waiting
  refine ⟨⟨⟨h.paired.attended, fun p pass i q found running waits => ?_, ?_⟩, passed.attentive⟩,
    trivial⟩
  · exact .inr ((h.paired.awaited p pass i q found running waits).resolve_left (by simp))
  · rintro other ⟨⟩
    exact h.paired.attended.alone call_of.found not_waiting

include reached turning h call_of

theorem pause_call (not_eager : call.status.isEager = false)
    (not_waiting : ∀ q, ¬ pass.Awaits frame.call q) : (pause frame outer w).Diligent :=
  pause_diligent reached turning (pass_by_call h call_of not_eager not_waiting)

theorem yield_diligent (not_eager : call.status.isEager = false)
    (not_waiting : ∀ q, ¬ pass.Awaits frame.call q) : (yield frame outer w).Diligent := by
  have woken := (wake_rouses h.paired.attended reached.linked.descending reached.sound
    h.attentive.toOrderly frame.callId).1
  have same := passes_wake w frame.callId
  obtain ⟨waking, changed⟩ := wake_eq w frame.callId
  have reached' : (w.wake frame.callId).Reached :=
    reached.leads (changed ▸ (Deed.setWaking w waking).changes.leads)
  exact pause_call reached' (same ▸ turning) (h.rouses woken)
    ⟨same ▸ call_of.found, call_of.running, call_of.at_position⟩ not_eager not_waiting

end

theorem rest_diligent (h : w.Heeds none (around p [])) (ending : Option Ending) :
    Diligent ⟨w, .settled ending⟩ :=
  ⟨⟨h.paired, h.attentive.rest rfl rfl rfl⟩, trivial⟩

theorem toPoll_diligent (h : w.Heeds none {}) (p : PassId) : (toPoll w p).Diligent :=
  ⟨⟨h.paired, h.attentive.start p⟩, trivial⟩

theorem leave_diligent (reached : w.Reached) (stacked : Stacked w.passes p outer)
    (h : w.Heeds none (around p outer)) : (leave w p outer).Diligent := by
  cases outer with
  | cons frame frames => exact pause_diligent reached stacked.concluding.1 h
  | nil =>
    have rest := rest_diligent h none
    unfold leave
    dsimp only
    split
    · exact toPoll_diligent rest.heeds p
    · exact rest

theorem stay_diligent (h : w.Heeds none (visiting frame outer)) {pass : Pass} {call : Call}
    (call_of : w.IsCall frame.pass frame.call pass call)
    (unfinished : call.status.isUnfinished = true) : (stay frame outer w).Diligent :=
  ⟨h, pass, call, call_of.found, call_of.at_position, unfinished⟩

section
variable {pass : Pass} {call : Call} {number : Nat} {before : Await} {todo : Script}

theorem setStatus_heeds (h : w.Heeds none (visiting frame outer))
    (call_of : w.IsCall frame.pass frame.call pass call)
    (not_waiting : ∀ q, ¬ pass.Awaits frame.call q) (number : Nat) (after : Await) (rest : Script)
    (waits : ∀ q propagate, after = .pass q propagate → IsOpen w.passes q) :
    (w.setStatus frame.pass frame.call (.running number after rest)).Heeds none
      (visiting frame outer) := by
  refine h.setCall call_of (passes_setStatus call_of.found _ _) rfl rfl rfl rfl rfl
    (h.paired.attended.alone call_of.found not_waiting) nofun ?_
  rintro _ q propagate _ ⟨⟩
  exact waits q propagate rfl

theorem goOn_diligent (h : w.Heeds none (visiting frame outer))
    (call_of : w.IsCall frame.pass frame.call pass call)
    (not_waiting : ∀ q, ¬ pass.Awaits frame.call q) (number : Nat) (after : Await) (rest : Script)
    (waits : ∀ q propagate, after = .pass q propagate → IsOpen w.passes q) :
    (stay frame outer
      (w.setStatus frame.pass frame.call (.running number after rest))).Diligent :=
  stay_diligent (setStatus_heeds h call_of not_waiting number after rest waits)
    (call_of.setStatus (.running number after rest)) rfl

theorem giveWay_diligent (reached : w.Reached) (turning : Turning w.passes frame.pass outer)
    (h : w.Heeds none (visiting frame outer))
    (call_of : w.IsCall frame.pass frame.call pass call)
    (begun : call.status = .running number before todo)
    (not_waiting : ∀ q, ¬ pass.Awaits frame.call q) (turns : Nat) (rest : Script) :
    (yield frame outer
      (w.setStatus frame.pass frame.call (.running number (.turns turns) rest))).Diligent := by
  obtain ⟨changes, turning'⟩ :=
    proceed_turning reached turning call_of begun (.turns turns) rest (by simp)
  have call_of' := call_of.setStatus (.running number (.turns turns) rest)
  exact yield_diligent (reached.leads changes.leads) turning'
    (setStatus_heeds h call_of not_waiting number (.turns turns) rest (by simp)) call_of' rfl
    (call_of'.not_awaits (by simp))

theorem afterStep_diligent (reached : w.Reached) (turning : Turning w.passes frame.pass outer)
    (h : w.Heeds none (visiting frame outer))
    (call_of : w.IsCall frame.pass frame.call pass call)
    (begun : call.status = .running number before todo)
    (not_waiting : ∀ q, ¬ pass.Awaits frame.call q) (rest : Script) {result : World × Effect}
    (taken : Taken w frame.pass frame.call pass result)
    (step : StepTaken w frame.callId pass.lineage result) :
    (afterStep frame outer number rest result).Diligent := by
  have reached' := reached.leads taken.changes.leads
  have turning' := turning.mono taken.kept
  have call_of' : result.1.IsCall frame.pass frame.call pass call :=
    ⟨taken.kept _ _ call_of.found, call_of.running, call_of.at_position⟩
  cases step with
  | @acts after effect passes signals alone =>
    have rouses := signals.rouses passes h.paired.attended reached.linked.descending
      reached.sound h.attentive.toOrderly
    have h' := h.rouses rouses
    cases effect with
    | goOn await =>
      exact goOn_diligent h' call_of' not_waiting number await rest fun q propagate same =>
        absurd (congrArg Effect.goOn same) (alone q propagate)
    | giveWay turns =>
      exact giveWay_diligent reached' turning' h' call_of' begun not_waiting turns rest
    | finish verdict =>
      exact end_diligent h' call_of' (by rw [begun]; rfl) not_waiting verdict
  | @starts started inner propagate passes waking fresh no_calls lineage =>
    have h' : started.Heeds none (visiting frame outer) :=
      h.calm waking (passes ▸ h.paired.append fresh) (passes ▸ .append fresh no_calls)
    refine goOn_diligent h' call_of' not_waiting number _ rest ?_
    rintro q _ ⟨⟩
    exact ⟨inner, passes ▸ List.getElem?_concat_length, by simp [fresh, Phase.isOpen]⟩

theorem visitRunning_diligent (reached : w.Reached) (turning : Turning w.passes frame.pass outer)
    (h : w.Heeds none (visiting frame outer))
    (call_of : w.IsCall frame.pass frame.call pass call)
    (begun : call.status = .running number before todo) :
    (visitRunning w frame outer pass call.handler number before todo).Diligent := by
  have not_eager : call.status.isEager = false := by
    rw [begun]
    rfl
  have not_waiting : (∀ q propagate, before ≠ .pass q propagate) →
      ∀ q, ¬ pass.Awaits frame.call q := by
    intro other
    refine call_of.not_awaits fun number' q propagate rest waits => ?_
    rw [begun, Status.running.injEq] at waits
    exact other q propagate waits.2.1
  -- what is neither ready nor a pass is waited for in one and the same way
  have waiting : ∀ met : Bool, (∀ q propagate, before ≠ .pass q propagate) → Diligent
      (if met then
        stay frame outer (w.setStatus frame.pass frame.call (.running number .ready todo))
      else pause frame outer (w.await frame.callId pass.token before)) := by
    intro met other
    split
    · exact goOn_diligent h call_of (not_waiting other) number .ready todo (by simp)
    · have deed := Deed.await w frame.callId pass.token before
      have reached' := reached.leads deed.changes.leads
      exact pause_call reached' (deed.passes.symm ▸ turning) (h.rouses (rouses_await ..))
        ⟨deed.passes ▸ call_of.found, call_of.running, call_of.at_position⟩ not_eager
        (not_waiting other)
  unfold visitRunning
  split
  · split
    · exact afterStep_diligent reached turning h call_of begun (not_waiting (by simp)) _
        (take_taken call_of.found _ _) (take_stepTaken ..)
    · exact end_diligent h call_of not_eager (not_waiting (by simp)) _
  · exact giveWay_diligent reached turning h call_of begun (not_waiting (by simp)) _ _
  · rename_i q propagate
    refine ⟨⟨h.paired, h.attentive.enter h.paired.attended rfl fun inner callers wants => ?_⟩,
      trivial⟩
    obtain ⟨other, relied, waits⟩ := relied_by_inner h.paired.attended call_of not_eager wants
    have same : other = q := waits.unique ⟨call, _, _, _, call_of.at_position, begun⟩
    rw [relied, same]
  · rename_i other_ready other_turns other_pass
    exact waiting _ other_pass

end

section
variable {pass : Pass} {call : Call}

theorem begin_diligent (reached : w.Reached) (h : w.Heeds none (visiting frame outer))
    (call_of : w.IsCall frame.pass frame.call pass call)
    {admitted : World} (admits : w.Admits frame.pass pass call admitted) :
    (stay frame outer (admitted.beginCall frame.pass frame.call pass call)).Diligent := by
  obtain ⟨handler, there⟩ := reached.handler_there call_of admits.unfinished
  obtain ⟨permits, number, script, -, passes⟩ := passes_beginCall call_of admits there
  have not_waiting := call_of.not_awaits fun number q propagate => admits.not_running number _
  have h' := h.setCall call_of passes (admits.waking_beginCall _) rfl rfl rfl rfl
    (h.paired.attended.alone call_of.found not_waiting) (by simp) (by simp)
  exact stay_diligent h' (call_of.setCall passes rfl rfl) rfl

theorem queue_diligent (reached : w.Reached) (turning : Turning w.passes frame.pass outer)
    (h : w.Heeds none (visiting frame outer))
    (call_of : w.IsCall frame.pass frame.call pass call) (idle : call.status = .idle)
    {permits : Permits} (limited : pass.permits = some permits) (short : permits.take? = none) :
    (pause frame outer ((w.setPermits frame.pass (permits.enqueue frame.call)).setStatus
      frame.pass frame.call .queued)).Diligent := by
  have first := passes_setPermits call_of.found (permits.enqueue frame.call)
  have here := first ▸ getElem?_set_of_some _ call_of.found
  have passes : ((w.setPermits frame.pass (permits.enqueue frame.call)).setStatus
      frame.pass frame.call .queued).passes = w.passes.set frame.pass
        ({ pass with permits := some (permits.enqueue frame.call) }.setCall
          frame.call .queued) := by
    rw [passes_setStatus here, first, List.set_set]
  have not_waiting := call_of.not_awaits (by simp [idle])
  have h' := h.setCall call_of passes rfl rfl rfl rfl rfl
    (h.paired.attended.alone call_of.found not_waiting) nofun (by simp)
  have changes : w.Changes _ := .single (.queue call_of idle limited short)
  have call_of' : IsCall _ frame.pass frame.call _ { call with status := .queued } :=
    call_of.setCall passes rfl rfl
  have turning' := turning.set reached.linked call_of'.running
  exact pause_call (reached.leads changes.leads) (passes ▸ turning') h' call_of' rfl
    (call_of'.not_awaits (by simp))

theorem visit_diligent (reached : w.Reached) (turning : Turning w.passes frame.pass outer)
    (h : w.Heeds none (visiting frame outer))
    (call_of : w.IsCall frame.pass frame.call pass call)
    (unfinished : call.status.isUnfinished = true) : (visit w frame outer pass call).Diligent := by
  unfold visit
  cases status : call.status with
  | idle =>
    cases limited : pass.permits with
    | none => exact begin_diligent reached h call_of (.freely status limited)
    | some permits =>
      dsimp only
      cases taken : permits.take? with
      | none => exact queue_diligent reached turning h call_of status limited taken
      | some left => exact begin_diligent reached h call_of (.taking status limited taken)
  | queued =>
    exact pause_call reached turning h call_of (by rw [status]; rfl)
      (call_of.not_awaits (by simp [status]))
  | granted => exact begin_diligent reached h call_of (.granted status)
  | running number await rest => exact visitRunning_diligent reached turning h call_of status
  | finished error => simp [status, Status.isUnfinished] at unfinished
  | abandoned => simp [status, Status.isUnfinished] at unfinished

end

theorem poll_diligent (reached : w.Reached) (turning : Turning w.passes frame.pass outer)
    (h : w.Heeds none (visiting frame outer)) (pending : IsPending w.passes frame.pass frame.call) :
    (poll w frame outer).Diligent := by
  obtain ⟨pass, call, found, at_position, unfinished⟩ := pending
  have call_of : w.IsCall frame.pass frame.call pass call :=
    ⟨found, turning.phase found, at_position⟩
  unfold poll
  simp only [found, call_of.call?]
  exact visit_diligent reached turning h call_of unfinished

end Machine
end Fanout
