import Fanout.Proofs.Lifetime

/-! Permits are neither lost nor made. In a pass with a limit, every permit is free, or some call of
this very pass runs with it or was handed it; a call that is over has given its own back, however it
ended. The calls that wait for a permit are those in the queue, and there are none while a permit is
free. So never do more calls run at once than the limit allows. -/
namespace Fanout

/-- The call was handed a permit, and did not begin since. -/
def Status.isGranted : Status → Bool
  | granted => true
  | _ => false

theorem Status.isGranted_of_isRunning {status : Status} (h : status.isRunning = true) :
    status.isGranted = false := by
  cases status <;> simp_all [isRunning, isGranted]

theorem countP_set {α : Type} (f : α → Bool) {l : List α} {i : Nat} {a : α} (h : l[i]? = some a)
    (b : α) : (l.set i b).countP f + (f a).toNat = l.countP f + (f b).toNat := by
  have counted : ∀ l : List α, l.countP f = (l.map fun x => (f x).toNat).sum := by
    intro l
    induction l with
    | nil => rfl
    | cons x xs ih => cases hx : f x <;> simp [hx, ih, Nat.add_comm]
  rw [counted, counted]
  exact sum_map_set (fun x => (f x).toNat) h b

namespace Pass

/-- How many calls of the pass are in a state like this. -/
def count (pass : Pass) (f : Status → Bool) : Nat := pass.calls.countP fun call => f call.status

theorem count_setCall {pass : Pass} {i : Nat} {call : Call}
    (at_position : pass.calls[i]? = some call) (status : Status) (f : Status → Bool) :
    (pass.setCall i status).count f + (f call.status).toNat =
      pass.count f + (f status).toNat := by
  unfold count setCall
  rw [World.modify_eq_set _ at_position]
  exact countP_set (fun call => f call.status) at_position _

/-- The permits of a pass with this limit are accounted for. -/
inductive Metered (pass : Pass) : Option Nat → Prop
  | unlimited (no_permits : pass.permits = none)
      (no_waiters : ∀ call ∈ pass.calls, call.status ≠ .queued ∧ call.status ≠ .granted) :
      Metered pass none
  | limited {n : Nat} {permits : Permits} (some_permits : pass.permits = some permits)
      (total : permits.free + pass.count Status.isRunning + pass.count Status.isGranted =
        min n Permits.most)
      (in_queue : ∀ i call, pass.calls[i]? = some call → call.status = .queued →
        i ∈ permits.queue)
      (short : permits.queue ≠ [] → permits.free = 0) : Metered pass (some n)

namespace Metered
variable {pass : Pass} {limit : Option Nat} {i : Nat} {call : Call}

/-- Another state of a call that does not wait for a permit leaves the queue as it is. -/
theorem in_queue_setCall {queue : List Nat} {status : Status}
    (in_queue : ∀ i call, pass.calls[i]? = some call → call.status = .queued → i ∈ queue)
    (other : status ≠ .queued) (j : Nat) (c : Call)
    (hj : (pass.setCall i status).calls[j]? = some c) (queued : c.status = .queued) :
    j ∈ queue := by
  rw [getElem?_setCall] at hj
  split at hj
  · obtain ⟨old, -, rfl⟩ := Option.map_eq_some_iff.mp hj
    exact absurd queued other
  · exact in_queue j c hj queued

theorem no_waiters_setCall {status : Status}
    (no_waiters : ∀ call ∈ pass.calls, call.status ≠ .queued ∧ call.status ≠ .granted)
    (not_queued : status ≠ .queued) (not_granted : status ≠ .granted) :
    ∀ call ∈ (pass.setCall i status).calls, call.status ≠ .queued ∧ call.status ≠ .granted := by
  intro c hc
  rcases mem_setCall hc with same | old
  · exact same ▸ ⟨not_queued, not_granted⟩
  · exact no_waiters c old

/-- A call finds no permit, and joins the queue. -/
theorem queueCall (h : pass.Metered limit) (at_position : pass.calls[i]? = some call)
    (idle : call.status = .idle) {permits : Permits} (has : pass.permits = some permits)
    (none_free : permits.take? = none) :
    ({ pass with permits := some (permits.enqueue i) }.setCall i .queued).Metered limit := by
  have none_free := (Permits.take?_eq_none_iff permits).mp none_free
  cases h with
  | unlimited no_permits no_waiters =>
    rw [no_permits] at has
    cases has
  | @limited n others some_permits total in_queue short =>
    rw [some_permits, Option.some.injEq] at has
    subst has
    have running := count_setCall at_position .queued Status.isRunning
    have granted := count_setCall at_position .queued Status.isGranted
    simp only [idle, Status.isRunning, Status.isGranted] at running granted
    have now : ({ pass with permits := some (others.enqueue i) }.setCall i .queued).permits =
        some (others.enqueue i) := rfl
    refine .limited now ?_ ?_ fun _ => none_free
    · show others.free + (pass.setCall i .queued).count _ + (pass.setCall i .queued).count _ = _
      omega
    · intro j other hj queued
      rw [getElem?_setCall] at hj
      split at hj
      · rename_i same
        exact same ▸ List.mem_append_right _ List.mem_cons_self
      · exact List.mem_append_left _ (in_queue j other hj queued)

/-- A call begins with a permit that was free or that it was handed, or needs none. -/
theorem begin (h : pass.Metered limit) (at_position : pass.calls[i]? = some call)
    {permits : Option Permits} (admits : pass.Admits call permits) (number : Nat)
    (script : Script) :
    ({ pass with permits }.setCall i (.running number .ready script)).Metered limit := by
  have running := count_setCall at_position (.running number .ready script) Status.isRunning
  have granted := count_setCall at_position (.running number .ready script) Status.isGranted
  cases h with
  | unlimited no_permits no_waiters =>
    have none_left : permits = none := by
      cases admits with
      | freely idle unlimited => rfl
      | taking idle limited free =>
        rw [no_permits] at limited
        cases limited
      | granted was => exact no_permits
    exact .unlimited none_left (no_waiters_setCall no_waiters (by simp) (by simp))
  | @limited n old some_permits total in_queue short =>
    cases admits with
    | freely idle unlimited =>
      rw [some_permits] at unlimited
      cases unlimited
    | @taking old' left idle limited free =>
      rw [some_permits, Option.some.injEq] at limited
      subst limited
      unfold Permits.take? at free
      split at free
      · cases free
      · rename_i some_free
        cases free
        simp only [idle, Status.isRunning, Status.isGranted, Bool.toNat_true, Bool.toNat_false]
          at running granted
        refine .limited rfl ?_ (in_queue_setCall in_queue (by simp))
          fun waiters => absurd (short waiters) some_free
        show old.free - 1 + (pass.setCall i _).count _ + (pass.setCall i _).count _ = _
        omega
    | granted was =>
      simp only [was, Status.isRunning, Status.isGranted, Bool.toNat_true, Bool.toNat_false]
        at running granted
      refine .limited some_permits ?_ (in_queue_setCall in_queue (by simp)) short
      show old.free + (pass.setCall i _).count _ + (pass.setCall i _).count _ = _
      omega

/-- A running call goes on. -/
theorem proceed (h : pass.Metered limit) (at_position : pass.calls[i]? = some call)
    (begun : call.status.isRunning = true) (number : Nat) (await : Await) (rest : Script) :
    (pass.setCall i (.running number await rest)).Metered limit := by
  have running := count_setCall at_position (.running number await rest) Status.isRunning
  have granted := count_setCall at_position (.running number await rest) Status.isGranted
  rw [begun] at running
  rw [Status.isGranted_of_isRunning begun] at granted
  simp only [Status.isRunning, Status.isGranted] at running granted
  cases h with
  | unlimited no_permits no_waiters =>
    exact .unlimited no_permits (no_waiters_setCall no_waiters (by simp) (by simp))
  | @limited n permits some_permits total in_queue short =>
    refine .limited some_permits ?_ (in_queue_setCall in_queue (by simp)) short
    omega

/-- The permit that is missing is given back: it goes to the next in the queue, or it is free. -/
theorem returnPermit {n : Nat} {permits : Permits} (some_permits : pass.permits = some permits)
    (missing : permits.free + pass.count Status.isRunning + pass.count Status.isGranted + 1 =
      min n Permits.most)
    (in_queue : ∀ j c, pass.calls[j]? = some c → c.status = .queued → j ∈ permits.queue)
    (short : permits.queue ≠ [] → permits.free = 0) (queue : pass.Queued permits) :
    pass.returnPermit.Metered (some n) := by
  obtain ⟨free, waiters⟩ := permits
  dsimp only at missing
  cases waiters with
  | nil =>
    rw [returnPermit_of_nil some_permits]
    refine .limited rfl ?_ in_queue (by simp)
    show free + 1 + pass.count _ + pass.count _ = _
    omega
  | cons next others =>
    obtain ⟨waiter, at_next, queued⟩ := queue.queued next List.mem_cons_self
    have running := count_setCall at_next .granted Status.isRunning
    have granted := count_setCall at_next .granted Status.isGranted
    simp only [queued, Status.isRunning, Status.isGranted, Bool.toNat_true, Bool.toNat_false]
      at running granted
    rw [returnPermit_of_cons some_permits]
    refine .limited rfl ?_ ?_ fun _ => short (by simp)
    · show free + (pass.setCall next _).count _ + (pass.setCall next _).count _ = _
      omega
    · intro j c hj was
      rw [getElem?_setCall] at hj
      split at hj
      · obtain ⟨old, -, rfl⟩ := Option.map_eq_some_iff.mp hj
        cases was
      · rename_i different
        exact (List.mem_cons.mp (in_queue j c hj was)).resolve_left (Ne.symm different)

/-- A call is over, however it ended, and its permit is given back. -/
theorem retire (h : pass.Metered limit) (sound : pass.Sound) (phase : pass.phase = .running)
    (at_position : pass.calls[i]? = some call) (begun : call.status.isRunning = true)
    (error : Option CallError) : (pass.retire i error).Metered limit := by
  have running := count_setCall at_position (.finished error) Status.isRunning
  have granted := count_setCall at_position (.finished error) Status.isGranted
  rw [begun] at running
  rw [Status.isGranted_of_isRunning begun] at granted
  simp only [Status.isRunning, Status.isGranted, Bool.toNat_true, Bool.toNat_false]
    at running granted
  cases h with
  | unlimited no_permits no_waiters =>
    have same : pass.retire i error = pass.setCall i (.finished error) :=
      returnPermit_of_none no_permits
    rw [same]
    exact .unlimited no_permits (no_waiters_setCall no_waiters (by simp) (by simp))
  | @limited n permits some_permits total in_queue short =>
    have still : (pass.setCall i (.finished error)).Sound :=
      sound.finish phase at_position begun error
    exact returnPermit some_permits (by omega) (in_queue_setCall in_queue (by simp)) short
      (still.queue phase _ some_permits)

end Metered
end Pass

namespace World

/-- The permits of all passes under way are accounted for, by the limits of their dispatchers. -/
def Metered (w : World) : Prop :=
  ∀ (p : PassId) (pass : Pass), w.passes[p]? = some pass → pass.phase = .running →
    pass.Metered (w.settings pass.dispatcher).limit

theorem Metered.set {w w' : World} (h : w.Metered) (reached : w.Reached) (step : TableStep w w')
    {p : PassId} {old new : Pass} (found : w.passes[p]? = some old)
    (passes : w'.passes = w.passes.set p new) (same : new.dispatcher = old.dispatcher)
    (turn : new.phase = .running → new.Metered (w.settings old.dispatcher).limit) :
    w'.Metered := by
  intro q pass at_q running
  rw [passes] at at_q
  by_cases hpq : p = q
  · subst hpq
    rw [getElem?_set_of_some _ found, Option.some.injEq] at at_q
    subst at_q
    rw [same, step.settings (reached.belongs found)]
    exact turn running
  · rw [List.getElem?_set_ne hpq] at at_q
    rw [step.settings (reached.belongs at_q)]
    exact h q pass at_q running

theorem Metered.same {w w' : World} (h : w.Metered) (reached : w.Reached) (step : TableStep w w')
    (passes : w'.passes = w.passes) : w'.Metered := by
  intro p pass found running
  rw [passes] at found
  rw [step.settings (reached.belongs found)]
  exact h p pass found running

/-- A call that may begin does so, for its handler is there. -/
theorem passes_beginCall {w admitted : World} {p : PassId} {i : Nat} {pass : Pass} {call : Call}
    (call_of : w.IsCall p i pass call) (admits : w.Admits p pass call admitted) {handler : Handler}
    (there : w.handlers.find? call.handler = some handler) :
    ∃ permits number script, pass.Admits call permits ∧
      (admitted.beginCall p i pass call).passes =
        w.passes.set p ({ pass with permits }.setCall i (.running number .ready script)) := by
  obtain ⟨permits, pass_admits, -, passes⟩ := admits.pass call_of.found
  have here : admitted.passes[p]? = some { pass with permits } :=
    passes ▸ getElem?_set_of_some _ call_of.found
  have same : admitted.handlers.find? call.handler = some handler := admits.handlers ▸ there
  refine ⟨permits, handler.begun, handler.script handler.begun, pass_admits, ?_⟩
  unfold beginCall
  rw [same]
  refine (passes_setStatus (w := admitted.countCall call.handler) here i _).trans ?_
  rw [show (admitted.countCall call.handler).passes = admitted.passes from rfl, passes,
    List.set_set]

/-- The handler of a call that is not over is there. -/
theorem Reached.handler_there {w : World} (reached : w.Reached) {p : PassId} {i : Nat} {pass : Pass}
    {call : Call} (call_of : w.IsCall p i pass call)
    (unfinished : call.status.isUnfinished = true) :
    ∃ handler, w.handlers.find? call.handler = some handler := by
  have pending : w.Pending call.handler := ⟨p, i, pass, call, call_of, rfl, unfinished⟩
  exact reached.made_of_kept (.inr pending)

theorem Metered.change {w w' : World} (h : w.Metered) (reached : w.Reached)
    (change : Change w w') : w'.Metered := by
  have step := change.tableStep
  cases change with
  | deed deed => exact h.same reached step deed.passes
  | @start d named token sender args lineage caller =>
    intro p pass found running
    simp only [World.start, List.getElem?_append] at found
    split at found
    · exact h p pass found running
    · have started := List.mem_singleton.mp (List.mem_of_getElem? found)
      subst started
      cases running
  | @queue p i pass call permits call_of idle limited short =>
    have first := passes_setPermits call_of.found (permits.enqueue i)
    have passes := passes_setStatus (first ▸ getElem?_set_of_some _ call_of.found) i .queued
    rw [first, List.set_set] at passes
    exact h.set reached step call_of.found passes rfl fun _ =>
      (h p pass call_of.found call_of.running).queueCall call_of.at_position idle limited short
  | @begin p i pass call admitted call_of admits =>
    obtain ⟨handler, there⟩ := reached.handler_there call_of admits.unfinished
    obtain ⟨permits, number, script, pass_admits, passes⟩ := passes_beginCall call_of admits there
    exact h.set reached step call_of.found passes rfl fun _ =>
      (h p pass call_of.found call_of.running).begin call_of.at_position pass_admits number script
  | @proceed p i pass call number before todo call_of begun after rest waits =>
    exact h.set reached step call_of.found (passes_setStatus call_of.found _ _) rfl fun _ =>
      (h p pass call_of.found call_of.running).proceed call_of.at_position (by rw [begun]; rfl)
        number after rest
  | @returnCall p i pass call call_of begun error =>
    exact h.set reached step call_of.found (passes_returnCall call_of.found _ _ _)
      (Pass.retire_same ..).2.1 fun _ =>
        (h p pass call_of.found call_of.running).retire
          (reached.recorded.sound p pass call_of.found) call_of.running call_of.at_position
          begun error
  | @catchPanic p i pass call call_of begun isolated payload =>
    exact h.set reached step call_of.found (passes_catchPanic call_of.found _ _ _ _)
      (Pass.retire_same ..).2.1 fun _ =>
        (h p pass call_of.found call_of.running).retire
          (reached.recorded.sound p pass call_of.found) call_of.running call_of.at_position
          begun _
  | complete found running finished =>
    exact h.set reached step found (passes_close found _) rfl fun running => by cases running
  | giveUp found isOpen incomplete unisolated =>
    exact h.set reached step found (passes_abandonPass found isOpen _) rfl fun running => by
      cases running

theorem idle_of_mem_firstCalls {live : List HandlerId} {names : List String} {call : Call}
    (member : call ∈ firstCalls live names) : call.status = .idle := by
  obtain ⟨i, hi⟩ := List.getElem?_of_mem member
  obtain ⟨handler, name, -, -, rfl⟩ := List.getElem?_zipWith_eq_some.mp hi
  rfl

/-- A pass starts with as many permits as its limit allows, and all of them are free. -/
theorem metered_firstCalls (pass : Pass) (live : List HandlerId) (names : List String)
    (settings : Settings) :
    ({ pass with phase := .running, calls := firstCalls live names, permits := settings.permits } :
      Pass).Metered settings.limit := by
  have none_of : ∀ f : Status → Bool, f .idle = false →
      (firstCalls live names).countP (fun call => f call.status) = 0 := by
    intro f not_idle
    refine List.countP_eq_zero.mpr fun call hc => ?_
    rw [idle_of_mem_firstCalls hc, not_idle]
    simp
  cases limit : settings.limit with
  | none =>
    refine .unlimited (by simp [Settings.permits, limit]) fun call hc => ?_
    rw [idle_of_mem_firstCalls hc]
    simp
  | some n =>
    have all_free : settings.permits = some (.ofLimit n) := by simp [Settings.permits, limit]
    refine .limited all_free ?_ ?_ (by simp [Permits.ofLimit])
    · unfold Pass.count
      rw [none_of Status.isRunning rfl, none_of Status.isGranted rfl]
      rfl
    · intro i call hc queued
      rw [idle_of_mem_firstCalls (List.mem_of_getElem? hc)] at queued
      cases queued

theorem Reached.metered {w : World} (reached : w.Reached) : w.Metered := by
  refine Reached.induction ?_ ?_ reached
  · intro arity blueprints p pass found
    simp at found
  · intro w w' reached ih progress
    cases progress with
    | change change => exact ih.change reached change
    | @opening p pass found fresh =>
      have step : TableStep w (w.openPass p pass).1 :=
        (Progress.opening found fresh).tableStep
      cases read : (w.survey p pass.dispatcher).readNames (w.snapshotOf pass.dispatcher).live with
      | error payload =>
        exact ih.set reached step found (passes_openPass_error found read) rfl fun running => by
          cases running
      | ok names =>
        refine ih.set reached step found (passes_openPass_ok found read) rfl fun _ => ?_
        rw [settings_survey]
        exact metered_firstCalls pass _ names _

end World
end Fanout
