import Fanout.Proofs.Diligence

/-! Turns are diligent, too: from the first poll of a pass to its end, and when it is given up, no
call that could go on is let down. -/
namespace Fanout

namespace Machine
open World
variable {w : World} {p : PassId} {frame : Frame} {outer : List Frame}

/-- The pass that is polled from outside was not raised by a call. -/
def Rooted (passes : List Pass) (p : PassId) (outer : List Frame) : Prop :=
  outer = [] → ∀ pass, passes[p]? = some pass → pass.lineage = []

/-- Only the call of the frame around a pass waits for it. -/
theorem awaits_innermost (linked : w.Linked) (stacked : Stacked w.passes p outer)
    (rooted : Rooted w.passes p outer) {q : PassId} {pass : Pass} {i : Nat}
    (found : w.passes[q]? = some pass) (waits : pass.Awaits i p) :
    innermost outer = some ⟨q, i⟩ := by
  obtain ⟨inner, found_inner, lineage⟩ := linked.inner q pass found i p waits
  cases stacked with
  | outermost p =>
    rw [rooted rfl inner found_inner] at lineage
    cases lineage
  | @within _ frame outer pass' found' _ waits' _ =>
    obtain ⟨inner', found_inner', lineage'⟩ := linked.inner _ pass' found' _ p waits'
    rw [found_inner, Option.some.injEq] at found_inner'
    rw [← found_inner', lineage, List.cons.injEq] at lineage'
    exact congrArg some lineage'.1.symm

theorem awaits_of_innermost (stacked : Stacked w.passes p outer) {call : CallId}
    (ends : innermost outer = some call) :
    ∃ pass, w.passes[call.pass]? = some pass ∧ pass.Awaits call.position p := by
  cases stacked with
  | outermost p => cases ends
  | within found running waits around =>
    cases ends
    exact ⟨_, found, waits⟩

theorem paired_shut (linked : w.Linked) (paired : Paired w.passes none)
    (stacked : Stacked w.passes p outer) (rooted : Rooted w.passes p outer)
    {old new : Pass} (found : w.passes[p]? = some old) (closed : new.phase.isOpen = false)
    (not_waiting : old.phase = .running → ∀ i q, ¬ old.Awaits i q) :
    Paired (w.passes.set p new) (innermost outer) := by
  have kept : ∀ q, ¬ (· = p) q → (w.passes.set p new)[q]? = w.passes[q]? :=
    fun q other => List.getElem?_set_ne (Ne.symm other)
  refine paired.shut nofun kept ?_ ?_ ?_ ?_
  · rintro _ rfl ⟨pass, found', isOpen⟩
    rw [getElem?_set_of_some _ found, Option.some.injEq] at found'
    rw [← found', closed] at isOpen
    cases isOpen
  · rintro q call callers runs rfl
    obtain ⟨outer, found', running, -, waits⟩ := paired.attended q call callers runs
    rw [found, Option.some.injEq] at found'
    subst found'
    exact absurd waits (not_waiting running _ _)
  · rintro q pass i _ found' - waits rfl
    exact .inr (awaits_innermost linked stacked rooted found' waits)
  · intro call ends
    obtain ⟨pass, found', waits⟩ := awaits_of_innermost stacked ends
    exact ⟨pass, p, found', waits, rfl⟩

theorem ending_diligent (h : w.Heeds (innermost outer) (around p outer)) (payload : Payload) :
    Diligent ⟨w, .ending (.panicked payload) outer⟩ := by
  cases outer with
  | nil => exact ⟨⟨h.paired, h.attentive.rest rfl rfl rfl⟩, payload, rfl⟩
  | cons frame frames => exact ⟨h, trivial⟩

theorem deliver_diligent (stacked : Stacked w.passes p outer)
    (h : w.Heeds (innermost outer) (around p outer)) (error : Option DispatchError) :
    (deliver w error outer).Diligent := by
  cases stacked with
  | outermost p => exact ⟨⟨h.paired, h.attentive.rest rfl rfl rfl⟩, trivial⟩
  | @within _ frame frames pass found running waits _ =>
    obtain ⟨⟨handler, name, status⟩, number, propagate, rest, at_position, rfl⟩ := waits
    have call_of : w.IsCall frame.pass frame.call pass _ := ⟨found, running, at_position⟩
    unfold deliver
    simp only [call_of.call?]
    split
    · exact ⟨h, trivial⟩
    · -- the pass is closed, so that its caller, which goes on, waits for none
      have told : (w.tell frame.pass frame.call handler
          (.did "invoke" (Ending.completed error).answer)).Heeds (innermost (frame :: frames))
            (around p (frame :: frames)) := h.calm rfl h.paired (.refl _)
      have told_call : (w.tell frame.pass frame.call handler
          (.did "invoke" (Ending.completed error).answer)).IsCall frame.pass frame.call pass _ :=
        ⟨found, running, at_position⟩
      have on := told.setCall told_call (passes_setStatus told_call.found frame.call
        (.running number .ready rest)) rfl rfl rfl rfl rfl (h.paired.alone _ rfl)
        (fun other ends => (Option.some.inj ends).symm) (by simp)
      exact stay_diligent ⟨on.paired, on.attentive.poll rfl frame.callId⟩
        (told_call.setStatus (.running number .ready rest)) rfl

theorem endTurn_diligent (reached : w.Reached) (turning : Turning w.passes p outer)
    (rooted : Rooted w.passes p outer) (h : w.Heeds none (inTurn p outer))
    (none_due : ∀ call ∈ w.waking.due, call.pass ≠ p) : (endTurn w p outer).Diligent := by
  obtain ⟨pass, found, running⟩ := turning.running
  have left : w.Heeds none (around p outer) :=
    ⟨h.paired, h.attentive.leave h.paired.attended rfl fun _ _ => .inl none_due⟩
  unfold endTurn
  simp only [found]
  split
  · rename_i finished
    have passes := passes_close found (.completed pass.error?)
    have waking : (w.close p (.completed pass.error?)).waking = w.waking := by
      rw [close_eq found]
      rfl
    have not_waiting : ∀ i q, ¬ pass.Awaits i q := by
      rintro i q ⟨call, number, propagate, rest, at_position, status⟩
      have is_over := (Pass.isOver_iff pass).mp finished call (List.mem_of_getElem? at_position)
      rw [status] at is_over
      cases is_over
    have closed : Paired (w.close p (.completed pass.error?)).passes (innermost outer) := by
      rw [passes]
      exact paired_shut reached.linked h.paired turning.stacked rooted found rfl
        fun _ => not_waiting
    have stacked := turning.stacked.set reached.linked
      { pass with phase := .closed (.completed pass.error?) }
    refine deliver_diligent (passes ▸ stacked) (left.calm waking closed ?_) _
    exact passes ▸ .set found rfl nofun rfl fun i c at_position eager => ⟨c, at_position, eager⟩
  · exact ⟨left, trivial⟩

theorem choose_diligent (reached : w.Reached) {turn : Turn}
    (turning : Turning w.passes turn.pass outer) (rooted : Rooted w.passes turn.pass outer)
    (h : w.Heeds none (inTurn turn.pass outer)) : (choose w turn outer).Diligent := by
  unfold choose
  split
  · rename_i call left next
    obtain ⟨q, i⟩ := call
    obtain rfl : q = turn.pass := (Waking.mem_due_of_next? next).2
    cases Waking.eq_of_next? next
    obtain ⟨pass, found, running⟩ := turning.running
    -- a call that is passed by is over, so that nobody relies on it
    have passed : (∀ c, pass.calls[i]? = some c → c.status.isUnfinished = false) →
        Diligent ⟨w.setWaking { w.waking with due := w.waking.due.erase ⟨turn.pass, i⟩ },
          .choosing turn outer⟩ := by
      intro is_over
      refine ⟨⟨h.paired, h.attentive.take h.paired.attended rfl rfl
        fun inner callers wants => ?_⟩, trivial⟩
      obtain ⟨c, at_position, unfinished, -⟩ := wants.status h.paired.attended found
      rw [is_over c at_position] at unfinished
      cases unfinished
    rw [call?_of_found found]
    split
    · rename_i handler name status at_position
      split
      · rename_i unfinished
        exact ⟨⟨h.paired, h.attentive.take h.paired.attended rfl rfl fun _ _ _ => rfl⟩,
          pass, _, found, at_position, unfinished⟩
      · rename_i is_over
        refine passed fun c same => ?_
        rw [at_position, Option.some.injEq] at same
        rw [← same]
        exact Bool.eq_false_of_not_eq_true is_over
    · rename_i no_call
      refine passed fun c same => ?_
      rw [no_call] at same
      cases same
  · rename_i none_next
    exact endTurn_diligent reached turning rooted h ((Waking.next?_eq_none_iff ..).mp none_next)

end Machine

namespace Pass
variable {pass : Pass} {i j : Nat} {q : PassId}

/-- The call that the next permit goes to. -/
def heir (pass : Pass) : Option Nat := pass.permits.bind fun permits => permits.queue.head?

theorem Awaits.returnPermit (h : pass.Awaits j q)
    (queued : ∀ permits, pass.permits = some permits → pass.Queued permits) :
    pass.returnPermit.Awaits j q := by
  match hp : pass.permits with
  | none => rwa [returnPermit_of_none hp]
  | some ⟨free, []⟩ => rw [returnPermit_of_nil hp]; exact h
  | some ⟨free, next :: others⟩ =>
    rw [returnPermit_of_cons hp]
    refine (awaits_setCall_of_ne ?_ .granted q).mpr h
    rintro rfl
    obtain ⟨call, number, propagate, rest, at_position, status⟩ := h
    obtain ⟨waiter, at_next, waiting⟩ := (queued _ hp).queued next List.mem_cons_self
    rw [at_next, Option.some.injEq] at at_position
    simp [← at_position, waiting] at status

theorem eager_returnPermit {c : Call} (at_position : pass.returnPermit.calls[j]? = some c)
    (eager : c.status.isEager = true) :
    (∃ c', pass.calls[j]? = some c' ∧ c'.status.isEager = true) ∨ pass.heir = some j := by
  match hp : pass.permits with
  | none =>
    rw [returnPermit_of_none hp] at at_position
    exact .inl ⟨c, at_position, eager⟩
  | some ⟨free, []⟩ =>
    rw [returnPermit_of_nil hp] at at_position
    exact .inl ⟨c, at_position, eager⟩
  | some ⟨free, next :: others⟩ =>
    rw [returnPermit_of_cons hp, getElem?_setCall] at at_position
    split at at_position
    · rename_i same
      subst same
      exact .inr (by simp [heir, hp])
    · exact .inl ⟨c, at_position, eager⟩

theorem eager_retire {error : Option CallError} {c : Call}
    (at_position : (pass.retire i error).calls[j]? = some c) (eager : c.status.isEager = true) :
    (∃ c', pass.calls[j]? = some c' ∧ c'.status.isEager = true) ∨
      (pass.setCall i (.finished error)).heir = some j := by
  refine (eager_returnPermit at_position eager).imp ?_ id
  rintro ⟨c', at_position', eager'⟩
  rw [getElem?_setCall] at at_position'
  split at at_position'
  · obtain ⟨old, -, rfl⟩ := Option.map_eq_some_iff.mp at_position'
    cases eager'
  · exact ⟨c', at_position', eager'⟩

theorem length_retire (pass : Pass) (i : Nat) (error : Option CallError) :
    (pass.retire i error).calls.length = pass.calls.length := by
  have plans := congrArg List.length (pass.plan_retire i error)
  simpa [plan] using plans

end Pass

/-- The call that was about to end is over; no pass that runs was raised by it. -/
theorem Paired.retire {passes : List Pass} {p : PassId} {i : Nat} {pass : Pass}
    {error : Option CallError} (h : Paired passes (some ⟨p, i⟩)) (found : passes[p]? = some pass)
    (running : pass.phase = .running) (sound : (pass.setCall i (.finished error)).Sound) :
    Paired (passes.set p (pass.retire i error)) none := by
  have same := pass.retire_same i error
  refine h.update found running (same.2.2.trans running) same.1 ?_ ?_ ?_
  · intro j q not_alone waits
    have other : i ≠ j := by
      rintro rfl
      exact not_alone (h.alone _ rfl)
    exact ((Pass.awaits_setCall_of_ne other _ q).mpr waits).returnPermit (sound.queue running)
  · intro j q waits
    have waits := waits.of_returnPermit
    by_cases other : i = j
    · subst other
      obtain ⟨_, _, _, finished⟩ := waits.status_of_setCall
      cases finished
    · refine .inl ⟨(Pass.awaits_setCall_of_ne other _ q).mp waits, fun ends => other ?_⟩
      simpa using ends
  · rintro _ ⟨⟩
    rfl

namespace World
variable {w : World} {p : PassId} {i : Nat} {pass : Pass} {call : Call} {focus : Focus}

/-- A permit that is given back wakes the call that it goes to. -/
theorem returnPermit_woken (found : w.passes[p]? = some pass) :
    ∃ u : World, u.waking = w.waking ∧ u.passes = w.passes.set p pass.returnPermit ∧
      (w.returnPermit p = u ∧ pass.heir = none ∨
        ∃ next, w.returnPermit p = u.wake ⟨p, next⟩ ∧ pass.heir = some next) := by
  obtain ⟨dispatcher, token, occasion, lineage, phase, calls, permits⟩ := pass
  unfold returnPermit Pass.returnPermit Pass.heir
  simp only [found]
  rcases permits with _ | ⟨free, _ | ⟨next, others⟩⟩
  · exact ⟨w, rfl, (set_eq_self found).symm, .inl ⟨rfl, rfl⟩⟩
  · exact ⟨w.setPermits p ⟨free + 1, []⟩, rfl, passes_setPermits found _, .inl ⟨rfl, rfl⟩⟩
  · have first := passes_setPermits found ⟨free, others⟩
    have again := first ▸ getElem?_set_of_some _ found
    refine ⟨(w.setPermits p ⟨free, others⟩).setStatus p next .granted, rfl, ?_,
      .inr ⟨next, rfl, rfl⟩⟩
    rw [passes_setStatus again, first, List.set_set]
    rfl

/-- So does the permit of a call that is over. -/
theorem retire_woken (found : w.passes[p]? = some pass) (i : Nat) (handler : HandlerId)
    (error : Option CallError) :
    ∃ u : World, u.waking = w.waking ∧ u.passes = w.passes.set p (pass.retire i error) ∧
      (w.retire p i handler error = u ∧ (pass.setCall i (.finished error)).heir = none ∨
        ∃ next, w.retire p i handler error = u.wake ⟨p, next⟩ ∧
          (pass.setCall i (.finished error)).heir = some next) := by
  have released : ((w.setStatus p i (.finished error)).release handler).passes[p]? =
      some (pass.setCall i (.finished error)) := by
    rw [passes_release, passes_setStatus found]
    exact getElem?_set_of_some _ found
  obtain ⟨u, waking, passes, outcome⟩ := returnPermit_woken released
  refine ⟨u, waking.trans (waking_release ..), ?_, outcome⟩
  rw [passes, passes_release, passes_setStatus found, List.set_set]
  rfl

/-- If one call more could go on, it is enough to wake it. -/
theorem Heeds.wake {ended : Option CallId} (h : w.Heeds ended focus) {u : World}
    (waking : u.waking = w.waking) (paired : Paired u.passes none)
    (descending : Descending u.passes)
    (sound : ∀ (q : PassId) (x : Pass), u.passes[q]? = some x → x.Sound)
    (runs : ∀ q callers, Runs u.passes q callers → Runs w.passes q callers)
    (crowded : ∀ q, Crowded u.passes q → Crowded w.passes q) {heir : CallId}
    (eager : ∀ other callers, Eager u.passes other callers →
      Eager w.passes other callers ∨ other = heir) : (u.wake heir).Heeds none focus := by
  have extends_to : (w.scene focus).Extends (u.scene focus) := by
    unfold scene
    rw [waking]
    exact ⟨fun _ => id, crowded, fun _ => id, fun _ => id, fun _ => id, fun _ => id⟩
  have orderly : (u.scene focus).Orderly := by
    refine extends_to.carries.orderly (extends_to.settles runs ?_ ?_) h.attentive.toOrderly
    · show ∀ q ∈ u.waking.asked, q ∈ w.waking.asked
      exact waking ▸ fun _ => id
    · show ∀ other ∈ u.waking.due, other ∈ w.waking.due
      exact waking ▸ fun _ => id
  obtain ⟨rouses, hears⟩ := wake_rouses paired.attended descending sound orderly heir
  refine ⟨(passes_wake u heir).symm ▸ paired, rouses.orderly orderly, fun other callers now => ?_⟩
  have could : Eager u.passes other callers := passes_wake u heir ▸ now
  rcases eager other callers could with before | rfl
  · exact rouses.extends_to.hears (extends_to.hears (h.attentive.heard other callers before))
  · exact hears callers could

/-- A call is over, and the one that gets its permit will be polled. -/
theorem Heeds.retire (h : w.Heeds (some ⟨p, i⟩) focus)
    (all_sound : ∀ (q : PassId) (x : Pass), w.passes[q]? = some x → x.Sound)
    (descending : Descending w.passes) (call_of : w.IsCall p i pass call)
    (begun : call.status.isRunning = true) (handler : HandlerId) (error : Option CallError) :
    (w.retire p i handler error).Heeds none focus := by
  have sound : (pass.setCall i (.finished error)).Sound :=
    (all_sound p pass call_of.found).finish call_of.running call_of.at_position begun error
  have paired := h.paired.retire call_of.found call_of.running sound
  have lineage := (pass.retire_same i error).1
  have length := pass.length_retire i error
  obtain ⟨u, u_waking, u_passes, outcome⟩ := retire_woken call_of.found i handler error
  rcases outcome with ⟨result, no_heir⟩ | ⟨next, result, heir⟩
  · have calms : Calms w.passes (w.passes.set p (pass.retire i error)) := by
      refine .set call_of.found lineage (fun _ => call_of.running) length
        fun j c at_position eager => ?_
      refine (Pass.eager_retire at_position eager).resolve_right fun heir => ?_
      rw [no_heir] at heir
      cases heir
    exact result ▸ h.calm u_waking (u_passes ▸ paired) (u_passes ▸ calms)
  · have runs : ∀ q callers, Runs u.passes q callers → Runs w.passes q callers := by
      rw [u_passes]
      exact fun q callers => Calms.runs_set call_of.found lineage fun _ => call_of.running
    rw [result]
    refine h.wake u_waking (u_passes ▸ paired)
      (fun q callers now => descending q callers (runs q callers now))
      (fun q x found => ?_) runs (fun q => ?_) fun other callers now => ?_
    · rw [u_passes] at found
      by_cases here : p = q
      · subst here
        rw [getElem?_set_of_some _ call_of.found, Option.some.injEq] at found
        exact found ▸ sound.returnPermit call_of.running
      · rw [List.getElem?_set_ne here] at found
        exact all_sound q x found
    · rw [u_passes]
      exact Calms.crowded_set call_of.found length
    · rw [u_passes] at now
      rcases Calms.eager_set call_of.found lineage (fun _ => call_of.running) now with
        before | ⟨here, c, at_position, eager, before⟩
      · exact .inl before
      · rcases Pass.eager_retire at_position eager with ⟨c', old, old_eager⟩ | is_heir
        · exact .inl (before c' old old_eager)
        · rw [heir, Option.some.injEq] at is_heir
          obtain ⟨q, j⟩ := other
          obtain rfl : q = p := here
          obtain rfl : next = j := is_heir
          exact .inr rfl

theorem Heeds.returnCall (h : w.Heeds (some ⟨p, i⟩) focus) (reached : w.Reached)
    (call_of : w.IsCall p i pass call) (begun : call.status.isRunning = true)
    (error : Option CallError) : (w.returnCall p i call.handler error).Heeds none focus := by
  have told : ((w.setTally w.tally.returnedOne).record (.returned p i call.handler error)).Heeds
      (some ⟨p, i⟩) focus := h.calm rfl h.paired (.refl _)
  exact told.retire reached.sound reached.linked.descending
    ⟨call_of.found, call_of.running, call_of.at_position⟩ begun call.handler error

theorem Heeds.catchPanic (h : w.Heeds (some ⟨p, i⟩) focus) (reached : w.Reached)
    (call_of : w.IsCall p i pass call) (begun : call.status.isRunning = true) (d : DispatcherId)
    (payload : Payload) : (w.catchPanic p i d call payload).Heeds none focus := by
  have told : ((w.cutCall p i call.handler).record
      (.caught p i d call.name payload.info)).Heeds (some ⟨p, i⟩) focus :=
    h.calm rfl h.paired (.refl _)
  exact told.retire reached.sound reached.linked.descending
    ⟨call_of.found, call_of.running, call_of.at_position⟩ begun call.handler _

/-- Some passes were closed, and all others are as they were. -/
structure Closes (w : World) (closes : PassId → Prop) (w' : World) : Prop where
  waking : w'.waking = w.waking
  calms : Calms w.passes w'.passes
  kept : ∀ q, ¬ closes q → w'.passes[q]? = w.passes[q]?
  closed : ∀ q, closes q → ¬ IsOpen w'.passes q

theorem closes_abandonPass (w : World) (p : PassId) (ending : Ending) :
    w.Closes (· = p) (w.abandonPass p ending) := by
  have waking := (abandonPass_aside w p ending).2
  have kept : ∀ q, ¬ (· = p) q → (w.abandonPass p ending).passes[q]? = w.passes[q]? :=
    fun q other => passes_abandonPass_of_ne w (Ne.symm other) ending
  cases found : w.passes[p]? with
  | none =>
    have same : w.abandonPass p ending = w := by simp [abandonPass, found]
    refine ⟨waking, by rw [same]; exact .refl _, kept, ?_⟩
    rintro _ rfl ⟨pass, found', -⟩
    rw [same, found] at found'
    cases found'
  | some pass =>
    cases isOpen : pass.phase.isOpen with
    | false =>
      have same : w.abandonPass p ending = w := by simp [abandonPass, found, isOpen]
      refine ⟨waking, by rw [same]; exact .refl _, kept, ?_⟩
      rintro _ rfl ⟨pass', found', isOpen'⟩
      rw [same, found, Option.some.injEq] at found'
      rw [← found', isOpen] at isOpen'
      cases isOpen'
    | true =>
      have passes := passes_abandonPass found isOpen ending
      refine ⟨waking, passes ▸ .set found rfl (by simp [Pass.giveUp]) (by simp [Pass.giveUp]) ?_,
        kept, ?_⟩
      · intro i c at_position eager
        obtain ⟨old, -, rfl⟩ := List.mem_map.mp (List.mem_of_getElem? at_position)
        have unfinished := Status.isUnfinished_of_isEager eager
        rw [Call.abandon_over] at unfinished
        cases unfinished
      · rintro _ rfl ⟨pass', found', isOpen'⟩
        rw [passes, getElem?_set_of_some _ found, Option.some.injEq] at found'
        rw [← found'] at isOpen'
        cases isOpen'

theorem Closes.trans {w w' w'' : World} {first second : PassId → Prop} (h : w.Closes first w')
    (h' : w'.Closes second w'') : w.Closes (fun q => first q ∨ second q) w'' := by
  refine ⟨h'.waking.trans h.waking, h.calms.trans h'.calms, fun q other => ?_, fun q closes => ?_⟩
  · obtain ⟨not_first, not_second⟩ := not_or.mp other
    exact (h'.kept q not_second).trans (h.kept q not_first)
  · by_cases again : second q
    · exact h'.closed q again
    · rintro ⟨pass, found, isOpen⟩
      have before := (h'.kept q again).symm.trans found
      exact h.closed q (closes.resolve_right again) ⟨pass, before, isOpen⟩

theorem Closes.congr {w w' : World} {closes closes' : PassId → Prop} (h : w.Closes closes w')
    (same : ∀ q, closes' q ↔ closes q) : w.Closes closes' w' := by
  obtain rfl : closes' = closes := funext fun q => propext (same q)
  exact h

theorem closes_abandon (w : World) (p : PassId) (ending : Ending) :
    w.Closes (fun q => q ∈ w.descendants p ∨ q = p) (w.abandon p ending) := by
  have all : ∀ (qs : List PassId) (v : World),
      v.Closes (· ∈ qs) (qs.foldl (fun w q => w.abandonPass q .dropped) v) := by
    intro qs
    induction qs with
    | nil => exact fun v => ⟨rfl, .refl _, fun _ _ => rfl, by simp⟩
    | cons q qs ih =>
      intro v
      exact ((closes_abandonPass v q .dropped).trans (ih _)).congr fun r => List.mem_cons
  exact (all _ w).trans (closes_abandonPass _ p ending)

theorem mem_descendants_iff (w : World) (p q : PassId) : q ∈ w.descendants p ↔
    ∃ pass, w.passes[q]? = some pass ∧ ∃ call ∈ pass.lineage, call.pass = p := by
  have there : ∀ pass, w.passes[q]? = some pass → q < w.passes.length :=
    fun pass found => (List.getElem?_eq_some_iff.mp found).1
  simp only [descendants, List.mem_filter, List.mem_range]
  cases found : w.passes[q]? with
  | none => simp
  | some pass => simp [there pass found]

end World

theorem paired_abandon {w : World} (linked : w.Linked) {ended : Option CallId}
    (paired : Paired w.passes ended) {p : PassId} {outer : List Frame}
    (last : ∀ call, ended = some call → call.pass = p) (stacked : Stacked w.passes p outer)
    (rooted : Machine.Rooted w.passes p outer) (ending : Ending) :
    Paired (w.abandon p ending).passes (innermost outer) := by
  have closes := w.closes_abandon p ending
  refine paired.shut (fun call ends => .inr (last call ends)) closes.kept closes.closed ?_ ?_ ?_
  · rintro q call callers runs inside
    obtain ⟨inner, found, -, lineage⟩ := id runs
    refine .inl ((w.mem_descendants_iff p q).mpr ⟨inner, found, ?_⟩)
    rw [lineage]
    rcases inside with descends | same
    · obtain ⟨pass, found', other, member, same⟩ := (w.mem_descendants_iff p _).mp descends
      obtain ⟨_, found'', -, rfl, -⟩ := paired.attended q call callers runs
      rw [found', Option.some.injEq] at found''
      subst found''
      exact ⟨other, List.mem_cons_of_mem _ member, same⟩
    · exact ⟨call, List.mem_cons_self, same⟩
  · intro q pass i r found _ waits inside
    obtain ⟨inner, found', lineage⟩ := linked.inner q pass found i r waits
    rcases inside with descends | rfl
    · obtain ⟨_, found'', other, member, same⟩ := (w.mem_descendants_iff p r).mp descends
      rw [found', Option.some.injEq] at found''
      subst found''
      rcases List.mem_cons.mp (lineage ▸ member) with rfl | further
      · exact .inl (.inr same)
      · exact .inl (.inl ((w.mem_descendants_iff p q).mpr ⟨pass, found, other, further, same⟩))
    · exact .inr (Machine.awaits_innermost linked stacked rooted found waits)
  · intro call ends
    obtain ⟨pass, found, waits⟩ := Machine.awaits_of_innermost stacked ends
    exact ⟨pass, p, found, waits, .inr rfl⟩

namespace Machine
open World
variable {w : World} {p : PassId} {frame : Frame} {outer : List Frame}

theorem beginTurn_diligent (h : w.Heeds none (inTurn p outer)) :
    (beginTurn p outer w).Diligent := by
  refine ⟨⟨h.paired, h.attentive.extend ⟨fun _ => id, fun _ => id, fun _ => id, fun _ => id,
    fun _ => id, fun _ => id⟩ (fun _ _ => id) (fun _ _ => id) (fun q hq => ?_) fun _ => id⟩,
    trivial⟩
  exact (List.mem_filter.mp hq).1

theorem conclude_diligent (reached : w.Reached) {frames : List Frame}
    (concluding : Concluding w.passes frames) {verdict : Verdict}
    (rooted : ∀ frame outer, frames = frame :: outer → Rooted w.passes frame.pass outer)
    (h : Diligent ⟨w, .ending verdict frames⟩) : (conclude w verdict frames).Diligent := by
  cases frames with
  | nil =>
    obtain ⟨payload, rfl⟩ := h.ready
    exact ⟨h.heeds, trivial⟩
  | cons frame outer =>
    obtain ⟨turning, pass, call, found, at_position, begun⟩ := concluding
    have call_of : w.IsCall frame.pass frame.call pass call :=
      ⟨found, turning.phase found, at_position⟩
    have heeds : w.Heeds (some ⟨frame.pass, frame.call⟩) (inTurn frame.pass outer) := h.heeds
    unfold conclude
    simp only [found, call_of.call?]
    cases verdict with
    | returned error => exact beginTurn_diligent (heeds.returnCall reached call_of begun error)
    | panicked payload =>
      dsimp only
      split
      · exact beginTurn_diligent
          (heeds.catchPanic reached call_of begun pass.dispatcher payload)
      · have closes := w.closes_abandon frame.pass (.panicked payload)
        have paired := paired_abandon reached.linked heeds.paired
          (fun other ends => congrArg CallId.pass (Option.some.inj ends).symm) turning.stacked
          (rooted frame outer rfl) (.panicked payload)
        have after := heeds.calm closes.waking paired closes.calms
        refine ending_diligent ⟨after.paired, after.attentive.leave after.paired.attended rfl
          fun callers runs => ?_⟩ payload
        obtain ⟨pass', found', running', -⟩ := runs
        exact absurd ⟨pass', found', by simp [running', Phase.isOpen]⟩
          (closes.closed frame.pass (.inr rfl))

/-- A pass that somebody waits for is open. -/
theorem stuck_diligent (stacked : Stacked w.passes p outer)
    (h : w.Heeds none { around p outer with enters := some p }) (closed : ¬ IsOpen w.passes p) :
    (stuck w).Diligent := by
  cases stacked with
  | outermost p =>
    have stopped : ∀ callers, ¬ Runs w.passes p callers := by
      rintro callers ⟨pass, found, running, -⟩
      exact closed ⟨pass, found, by simp [running, Phase.isOpen]⟩
    exact rest_diligent ⟨h.paired, h.attentive.turn_away h.paired.attended stopped⟩ none
  | within found running waits around =>
    exact absurd ((h.paired.awaited _ _ _ p found running waits).resolve_left (by simp)) closed

theorem enter_running (h : w.Heeds none { around p outer with enters := some p }) {pass : Pass}
    (found : w.passes[p]? = some pass) :
    (beginTurn p outer (if pass.isCrowded then w else w.makeDue p pass.unfinished)).Diligent := by
  have begun : ∀ positions : List Nat, (pass.isCrowded = false → ∀ i call,
      pass.calls[i]? = some call → call.status.isUnfinished = true → i ∈ positions) →
      (beginTurn p outer (w.makeDue p positions)).Diligent := by
    intro positions listed
    refine ⟨⟨h.paired, h.attentive.begin_turn h.paired.attended ?_ (fun _ _ => id)
      (fun _ _ _ => id) (fun _ _ => .inl) ?_⟩, trivial⟩
    · intro call hc
      obtain ⟨i, -, rfl⟩ := List.mem_map.mp hc
      rfl
    · rintro inner ⟨q, i⟩ callers wants rfl alone
      obtain ⟨c, at_position, unfinished, -⟩ := wants.status h.paired.attended found
      refine List.mem_map.mpr ⟨i, listed ?_ i c at_position unfinished, rfl⟩
      exact Bool.eq_false_of_not_eq_true fun crowded => alone ⟨pass, found, crowded⟩
  split
  · rename_i crowded
    have nobody : w.makeDue p [] = w := by simp [makeDue, Waking.enqueue, setWaking]
    exact nobody ▸ begun [] (by simp [crowded])
  · refine begun pass.unfinished fun _ i call at_position unfinished => ?_
    have there := (List.getElem?_eq_some_iff.mp at_position).1
    exact List.mem_filter.mpr ⟨List.mem_range.mpr there, by simp [at_position, unfinished]⟩

theorem waking_survey (w : World) (p : PassId) (d : DispatcherId) :
    (w.survey p d).waking = w.waking := by
  have retained : ∀ (hs : List HandlerId) (v : World), (v.retainAll hs).waking = v.waking := by
    intro hs
    induction hs with
    | nil => exact fun v => rfl
    | cons h hs ih => exact fun v => ih (v.retain h)
  unfold survey sweep
  dsimp only
  split <;> exact retained ..

theorem waking_releaseAll (w : World) (hs : List HandlerId) :
    (w.releaseAll hs).waking = w.waking := by
  induction hs generalizing w with
  | nil => rfl
  | cons h hs ih => exact (ih (w.release h)).trans (waking_release w h)

theorem enter_refused (reached : w.Reached) (stacked : Stacked w.passes p outer)
    (rooted : Rooted w.passes p outer)
    (h : w.Heeds none { around p outer with enters := some p }) {pass : Pass}
    (found : w.passes[p]? = some pass) (fresh : pass.phase = .fresh) {payload : Payload}
    (read : (w.survey p pass.dispatcher).readNames (w.snapshotOf pass.dispatcher).live =
      .error payload) :
    Diligent ⟨(w.openPass p pass).1, .ending (.panicked payload) outer⟩ := by
  have passes := passes_openPass_error found read
  have waking : (w.openPass p pass).1.waking = w.waking := by
    have released : ((w.survey p pass.dispatcher).releaseAll
        (w.snapshotOf pass.dispatcher).live).passes[p]? = some pass := by
      rw [passes_releaseAll, passes_survey]
      exact found
    rw [openPass_error read, close_eq released]
    exact (waking_releaseAll ..).trans (waking_survey ..)
  have paired : Paired (w.openPass p pass).1.passes (innermost outer) := by
    rw [passes]
    exact paired_shut reached.linked h.paired stacked rooted found rfl
      fun running => by simp [fresh] at running
  have after := h.calm waking paired (passes ▸ .set found rfl nofun rfl
    fun i c at_position eager => ⟨c, at_position, eager⟩)
  refine ending_diligent ⟨paired, after.attentive.turn_away paired.attended ?_⟩ payload
  rintro callers ⟨pass', found', running, -⟩
  have here : (w.openPass p pass).1.passes[p]? = some pass' := found'
  rw [passes, getElem?_set_of_some _ found, Option.some.injEq] at here
  rw [← here] at running
  cases running

/-- A pass that is opened is what the call around it waits for, and its own calls wait for none. -/
theorem paired_opened (reached : w.Reached) (stacked : Stacked w.passes p outer)
    (rooted : Rooted w.passes p outer) (paired : Paired w.passes none) {old new : Pass}
    (found : w.passes[p]? = some old) (fresh : old.phase = .fresh) (running : new.phase = .running)
    (lineage : new.lineage = old.lineage) (idle : ∀ call ∈ new.calls, call.status = .idle) :
    Paired (w.passes.set p new) none := by
  refine paired.opened found fresh running ?_ fun call callers raised => ?_
  · rintro i q ⟨call, number, propagate, rest, at_position, status⟩
    rw [idle call (List.mem_of_getElem? at_position)] at status
    cases status
  · cases stacked with
    | outermost p =>
      rw [lineage, rooted rfl old found] at raised
      cases raised
    | @within _ frame outer pass found_outer outer_running waits _ =>
      obtain ⟨inner, found_inner, inner_lineage⟩ :=
        reached.linked.inner _ pass found_outer _ p waits
      rw [found, Option.some.injEq] at found_inner
      subst found_inner
      rw [lineage, inner_lineage, List.cons.injEq] at raised
      obtain ⟨rfl, rfl⟩ := raised
      exact ⟨pass, found_outer, outer_running, rfl, waits⟩

/-- A pass is opened with calls that are all due. -/
theorem opened_diligent {w' : World} (reached : w.Reached) (stacked : Stacked w.passes p outer)
    (rooted : Rooted w.passes p outer)
    (h : w.Heeds none { around p outer with enters := some p }) {old new : Pass}
    (found : w.passes[p]? = some old) (fresh : old.phase = .fresh)
    (passes : w'.passes = w.passes.set p new)
    (waking : w'.waking =
      w.waking.enqueue ((List.range new.calls.length).map fun i => ⟨p, i⟩))
    (running : new.phase = .running) (lineage : new.lineage = old.lineage)
    (idle : ∀ call ∈ new.calls, call.status = .idle) : (beginTurn p outer w').Diligent := by
  have here := getElem?_set_of_some new found
  have elsewhere : ∀ {q : PassId} {pass : Pass}, q ≠ p → (w.passes.set p new)[q]? = some pass →
      w.passes[q]? = some pass := fun other found' => List.getElem?_set_ne other.symm ▸ found'
  have paired : Paired (w.passes.set p new) none :=
    paired_opened reached stacked rooted h.paired found fresh running lineage idle
  have due : ∀ {i : Nat} {call : Call}, new.calls[i]? = some call →
      (⟨p, i⟩ : CallId) ∈ (List.range new.calls.length).map fun i => (⟨p, i⟩ : CallId) :=
    fun at_position => List.mem_map.mpr ⟨_, List.mem_range.mpr
      (List.getElem?_eq_some_iff.mp at_position).1, rfl⟩
  refine ⟨⟨passes ▸ paired, ?_⟩, trivial⟩
  show Scene.Attentive ⟨w'.passes, w'.waking.answer p, inTurn p outer⟩
  rw [passes, waking]
  refine h.attentive.begin_turn paired.attended ?_ ?_ ?_ ?_ ?_
  · intro call hc
    obtain ⟨i, -, rfl⟩ := List.mem_map.mp hc
    rfl
  · rintro q other ⟨pass, found', crowded⟩
    exact ⟨pass, elsewhere other found', crowded⟩
  · rintro q callers other ⟨pass, found', rest⟩
    exact ⟨pass, elsewhere other found', rest⟩
  · rintro ⟨q, i⟩ callers ⟨pass, c, found', pass_running, pass_lineage, at_position, eager⟩
    by_cases same : q = p
    · subst same
      have same_pass := here.symm.trans found'
      rw [Option.some.injEq] at same_pass
      exact .inr (due (same_pass ▸ at_position))
    · exact .inl ⟨pass, c, elsewhere same found', pass_running, pass_lineage, at_position, eager⟩
  · rintro inner ⟨q, i⟩ callers wants rfl -
    obtain ⟨c, at_position, -⟩ := wants.status paired.attended here
    exact due at_position

theorem enter_diligent (reached : w.Reached) (stacked : Stacked w.passes p outer)
    (rooted : Rooted w.passes p outer)
    (h : w.Heeds none { around p outer with enters := some p }) : (enter w p outer).Diligent := by
  unfold enter
  cases found : w.passes[p]? with
  | none =>
    refine stuck_diligent stacked h ?_
    rintro ⟨pass, found', -⟩
    rw [found] at found'
    cases found'
  | some pass =>
    dsimp only
    cases phase : pass.phase with
    | fresh =>
      cases read : (w.survey p pass.dispatcher).readNames
          (w.snapshotOf pass.dispatcher).live with
      | error payload =>
        have refused := enter_refused reached stacked rooted h found phase read
        have result : w.openPass p pass = ((w.openPass p pass).1, some payload) := by
          rw [openPass_error read]
        rw [result]
        exact refused
      | ok names =>
        have result : w.openPass p pass = ((w.openPass p pass).1, none) := by
          rw [openPass_ok read]
        have waking : (w.openPass p pass).1.waking = w.waking.enqueue ((List.range (firstCalls
            (w.snapshotOf pass.dispatcher).live names).length).map fun i => ⟨p, i⟩) := by
          rw [openPass_ok read]
          exact congrArg (Waking.enqueue · _) (waking_survey ..)
        have opened := opened_diligent reached stacked rooted h found phase
          (passes_openPass_ok found read) waking rfl rfl fun call => idle_of_mem_firstCalls
        rw [result]
        exact opened
    | running => exact enter_running h found
    | closed ending =>
      refine stuck_diligent stacked h ?_
      rintro ⟨pass', found', isOpen⟩
      rw [found, Option.some.injEq] at found'
      rw [← found', phase] at isOpen
      cases isOpen

end Machine
end Fanout
