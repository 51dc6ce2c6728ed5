import Fanout.Proofs.Becomes

/-! The ledger of a pass: the marks that it left in the history tell exactly which of its calls
began, and how those that are over ended. A call begins at most once and ends at most once, and a
pass that is complete has no call that did not do both. -/
namespace Fanout

/-- The calls of a pass that began, by position and handler, the latest first. -/
def begins (p : PassId) (events : List Event) : List (Nat × HandlerId) :=
  events.filterMap fun
    | .began q i handler _ _ _ => if q = p then some (i, handler) else none
    | _ => none

/-- How the calls of a pass ended that returned, or whose panic was caught. -/
def ends (p : PassId) (events : List Event) : List (Nat × Option CallError) :=
  events.filterMap fun
    | .returned q i _ error => if q = p then some (i, error) else none
    | .caught q i _ _ info => if q = p then some (i, some (.panicked info)) else none
    | _ => none

namespace Status

/-- The call began, or it was given up and may have begun before. -/
def hasBegun : Status → Bool
  | running _ _ _ => true
  | finished _ => true
  | abandoned => true
  | _ => false

/-- How the call ended, if it was not given up. -/
def outcome? : Status → Option (Option CallError)
  | finished error => some error
  | _ => none

@[simp] theorem outcome?_running (number : Nat) (await : Await) (rest : Script) :
    (running number await rest).outcome? = none := rfl

@[simp] theorem outcome?_finished (error : Option CallError) :
    (finished error).outcome? = some error := rfl

theorem ne_queued_of_isRunning {status : Status} (h : status.isRunning = true) :
    status ≠ queued := by
  rintro rfl
  cases h

end Status

@[simp] theorem Call.abandon_handler (call : Call) : call.abandon.handler = call.handler := by
  unfold Call.abandon
  split <;> rfl

@[simp] theorem Call.abandon_name (call : Call) : call.abandon.name = call.name := by
  unfold Call.abandon
  split <;> rfl

theorem Call.abandon_over (call : Call) : call.abandon.status.isUnfinished = false := by
  unfold Call.abandon
  split
  · rfl
  · rename_i h
    simpa using h

theorem Call.abandon_outcome? (call : Call) :
    call.abandon.status.outcome? = call.status.outcome? := by
  unfold Call.abandon
  split
  · rename_i h
    cases hs : call.status <;> simp_all [Status.isUnfinished, Status.outcome?]
  · rfl

theorem Call.abandon_hasBegun (call : Call) (h : call.status.hasBegun = true) :
    call.abandon.status.hasBegun = true := by
  unfold Call.abandon
  split
  · rfl
  · exact h

theorem Call.abandon_not_running (call : Call) : call.abandon.status.isRunning = false := by
  cases h : call.abandon.status.isRunning with
  | false => rfl
  | true =>
    have := Status.isUnfinished_of_isRunning h
    rw [call.abandon_over] at this
    cases this

namespace Pass

@[simp] theorem getElem?_setCall (pass : Pass) (i j : Nat) (status : Status) :
    (pass.setCall i status).calls[j]? =
      if i = j then (pass.calls[j]?).map fun call => { call with status } else pass.calls[j]? := by
  unfold setCall
  rw [List.getElem?_modify]
  split <;> simp

theorem mem_setCall {pass : Pass} {i : Nat} {status : Status} {call : Call}
    (h : call ∈ (pass.setCall i status).calls) : call.status = status ∨ call ∈ pass.calls := by
  obtain ⟨j, hj⟩ := List.getElem?_of_mem h
  rw [getElem?_setCall] at hj
  split at hj
  · obtain ⟨old, -, rfl⟩ := Option.map_eq_some_iff.mp hj
    exact .inl rfl
  · exact .inr (List.mem_of_getElem? hj)

section
variable {pass : Pass} {free next : Nat} {others : List Nat}

theorem returnPermit_of_none (h : pass.permits = none) : pass.returnPermit = pass := by
  simp [returnPermit, h]

theorem returnPermit_of_nil (h : pass.permits = some ⟨free, []⟩) :
    pass.returnPermit = { pass with permits := some ⟨free + 1, []⟩ } := by
  simp [returnPermit, h, Permits.giveBack]

theorem returnPermit_of_cons (h : pass.permits = some ⟨free, next :: others⟩) :
    pass.returnPermit =
      { pass with permits := some ⟨free, others⟩ }.setCall next .granted := by
  simp [returnPermit, h, Permits.giveBack]

end

/-- Exactly those calls are in the queue once that are queued. -/
structure Queued (pass : Pass) (permits : Permits) : Prop where
  nodup : permits.queue.Nodup
  queued : ∀ i ∈ permits.queue, ∃ call, pass.calls[i]? = some call ∧ call.status = .queued

theorem Queued.not_mem {pass : Pass} {permits : Permits} (h : pass.Queued permits) {i : Nat}
    {call : Call} (at_position : pass.calls[i]? = some call) (other : call.status ≠ .queued) :
    i ∉ permits.queue := by
  intro hi
  obtain ⟨found, hf, queued⟩ := h.queued i hi
  rw [at_position, Option.some.injEq] at hf
  exact other (hf ▸ queued)

theorem Queued.setCall {pass : Pass} {permits : Permits} (h : pass.Queued permits) {i : Nat}
    (out : i ∉ permits.queue) (status : Status) : (pass.setCall i status).Queued permits := by
  refine ⟨h.nodup, fun j hj => ?_⟩
  rw [getElem?_setCall, if_neg fun hij : i = j => out (hij ▸ hj)]
  exact h.queued j hj

theorem Queued.enqueue {pass : Pass} {permits : Permits} (h : pass.Queued permits) {i : Nat}
    {call : Call} (at_position : pass.calls[i]? = some call) (out : i ∉ permits.queue) :
    (pass.setCall i .queued).Queued (permits.enqueue i) := by
  refine ⟨?_, fun j hj => ?_⟩
  · exact List.nodup_append_comm.mp (List.nodup_cons.mpr ⟨out, h.nodup⟩)
  · rcases List.mem_append.mp hj with hj | hj
    · exact (h.setCall out .queued).queued j hj
    · rw [List.mem_singleton.mp hj, getElem?_setCall, if_pos rfl, at_position]
      exact ⟨_, rfl, rfl⟩

theorem Queued.next {pass : Pass} {free next : Nat} {others : List Nat}
    (h : pass.Queued ⟨free, next :: others⟩) :
    (pass.setCall next .granted).Queued ⟨free, others⟩ := by
  have fewer : pass.Queued ⟨free, others⟩ :=
    ⟨h.nodup.of_cons, fun i hi => h.queued i (List.mem_cons_of_mem _ hi)⟩
  exact fewer.setCall (List.nodup_cons.mp h.nodup).1 .granted

structure Sound (pass : Pass) : Prop where
  fresh_empty : pass.phase = .fresh → pass.calls = []
  whole : pass.phase = .running → ∀ call ∈ pass.calls, call.status ≠ .abandoned
  closed_over : ∀ ending, pass.phase = .closed ending →
    ∀ call ∈ pass.calls, call.status.isUnfinished = false
  completed : ∀ error, pass.phase = .closed (.completed error) → error = pass.error? ∧
    ∀ call ∈ pass.calls, call.status ≠ .abandoned
  queue : pass.phase = .running → ∀ permits, pass.permits = some permits → pass.Queued permits

theorem Admits.queue {pass : Pass} {call : Call} {permits : Option Permits}
    (h : pass.Admits call permits) {left : Permits} (some_left : permits = some left) :
    ∃ old, pass.permits = some old ∧ old.queue = left.queue := by
  cases h with
  | freely idle unlimited => cases some_left
  | @taking permits left' idle limited free =>
    refine ⟨permits, limited, ?_⟩
    unfold Permits.take? at free
    split at free
    · cases free
    · cases free
      cases some_left
      rfl
  | granted granted => exact ⟨left, some_left, rfl⟩

theorem Admits.not_queued {pass : Pass} {call : Call} {permits : Option Permits}
    (h : pass.Admits call permits) : call.status ≠ .queued := by
  cases h <;> simp_all

/-- Taking permits changes nothing but how many are free. -/
theorem Sound.takePermit {pass : Pass} (h : pass.Sound) (running : pass.phase = .running)
    {call : Call}
    {permits : Option Permits} (admits : pass.Admits call permits) :
    ({ pass with permits } : Pass).Sound where
  fresh_empty := h.fresh_empty
  whole := h.whole
  closed_over := h.closed_over
  completed := h.completed
  queue := by
    intro _ left some_left
    obtain ⟨old, some_old, same⟩ := admits.queue some_left
    have queued := h.queue running old some_old
    exact ⟨same ▸ queued.nodup, same ▸ queued.queued⟩

theorem Sound.setCall {pass : Pass} (h : pass.Sound) (running : pass.phase = .running) {i : Nat}
    {call : Call} (at_position : pass.calls[i]? = some call) (other : call.status ≠ .queued)
    {status : Status} (kept : status ≠ .abandoned) : (pass.setCall i status).Sound where
  fresh_empty fresh := by simp [Pass.setCall, running] at fresh
  whole _ c hc := by
    rcases mem_setCall hc with he | hc
    · rwa [he]
    · exact h.whole running c hc
  closed_over ending closed := by simp [Pass.setCall, running] at closed
  completed error closed := by simp [Pass.setCall, running] at closed
  queue _ permits some_permits := by
    have queued := h.queue running permits some_permits
    exact queued.setCall (queued.not_mem at_position other) status

theorem Sound.finish {pass : Pass} (h : pass.Sound) (running : pass.phase = .running) {i : Nat}
    {call : Call} (at_position : pass.calls[i]? = some call) (begun : call.status.isRunning = true)
    (error : Option CallError) : (pass.setCall i (.finished error)).Sound :=
  h.setCall running at_position (Status.ne_queued_of_isRunning begun) (by simp)

theorem Sound.queueCall {pass : Pass} (h : pass.Sound) (running : pass.phase = .running) {i : Nat}
    {call : Call} {permits : Permits} (at_position : pass.calls[i]? = some call)
    (idle : call.status = .idle) (limited : pass.permits = some permits) :
    ({ pass with permits := some (permits.enqueue i) }.setCall i .queued).Sound where
  fresh_empty fresh := by simp [Pass.setCall, running] at fresh
  whole _ c hc := by
    rcases mem_setCall hc with he | hc
    · simp [he]
    · exact h.whole running c hc
  closed_over ending closed := by simp [Pass.setCall, running] at closed
  completed error closed := by simp [Pass.setCall, running] at closed
  queue _ left some_left := by
    have queued := h.queue running permits limited
    have enqueued := queued.enqueue at_position (queued.not_mem at_position (by simp [idle]))
    cases some_left
    exact ⟨enqueued.nodup, enqueued.queued⟩

theorem Sound.returnPermit {pass : Pass} (h : pass.Sound) (running : pass.phase = .running) :
    pass.returnPermit.Sound := by
  match hp : pass.permits with
  | none => rwa [returnPermit_of_none hp]
  | some ⟨free, []⟩ =>
    rw [returnPermit_of_nil hp]
    refine ⟨h.fresh_empty, h.whole, h.closed_over, h.completed, ?_⟩
    intro _ permits some_permits
    cases some_permits
    exact ⟨List.nodup_nil, by simp⟩
  | some ⟨free, next :: others⟩ =>
    have queued := h.queue running _ hp
    rw [returnPermit_of_cons hp]
    refine ⟨fun fresh => ?_, fun _ c hc => ?_, fun ending closed => ?_, fun error closed => ?_, ?_⟩
    · simp [Pass.setCall, running] at fresh
    · rcases mem_setCall hc with he | hc
      · simp [he]
      · exact h.whole running c hc
    · simp [Pass.setCall, running] at closed
    · simp [Pass.setCall, running] at closed
    · intro _ permits some_permits
      cases some_permits
      exact ⟨queued.next.nodup, queued.next.queued⟩

theorem isOver_iff (pass : Pass) :
    pass.isOver = true ↔ ∀ call ∈ pass.calls, call.status.isUnfinished = false := by
  simp [isOver]

theorem Becomes.sound {p : PassId} {pass pass' : Pass} {mark : Option Event}
    {opens : Prop} {inner : Nat → PassId → Prop} (becomes : pass.Becomes p opens inner mark pass')
    (h : pass.Sound) : pass'.Sound := by
  cases becomes with
  | queue running at_position idle limited short =>
    exact h.queueCall running at_position idle limited
  | begin running at_position admits number script cancelled =>
    exact (h.takePermit running admits).setCall running at_position admits.not_queued (by simp)
  | takePermit running member admits => exact h.takePermit running admits
  | proceed running at_position begun after rest waits =>
    exact h.setCall running at_position (by simp [begun]) (by simp)
  | returnCall running at_position begun error =>
    exact (h.finish running at_position begun error).returnPermit running
  | catchPanic running at_position begun payload =>
    exact (h.finish running at_position begun _).returnPermit running
  | complete running finished =>
    refine ⟨by simp, by simp, ?_, ?_, by simp⟩
    · exact fun _ _ => (isOver_iff pass).mp finished
    · intro error closed
      simp only [Phase.closed.injEq, Ending.completed.injEq] at closed
      exact ⟨closed.symm, h.whole running⟩
  | giveUp isOpen incomplete =>
    refine ⟨by simp [Pass.giveUp], by simp [Pass.giveUp], ?_, ?_, by simp [Pass.giveUp]⟩
    · intro _ _ call hc
      obtain ⟨old, -, rfl⟩ := List.mem_map.mp hc
      exact old.abandon_over
    · intro error closed
      simp only [Pass.giveUp, Phase.closed.injEq] at closed
      exact absurd closed (incomplete error)
  | opened allowed fresh live names settings =>
    refine ⟨by simp, ?_, by simp, by simp, ?_⟩
    · intro _ call hc
      obtain ⟨i, hi⟩ := List.getElem?_of_mem hc
      obtain ⟨handler, name, -, -, rfl⟩ := List.getElem?_zipWith_eq_some.mp hi
      simp
    · intro _ permits some_permits
      obtain ⟨limit, -, rfl⟩ := Option.map_eq_some_iff.mp some_permits
      exact ⟨List.nodup_nil, by simp [Permits.ofLimit]⟩
  | refused allowed fresh payload =>
    refine ⟨by simp, by simp, ?_, by simp, by simp⟩
    intro _ _ call hc
    simp [h.fresh_empty fresh] at hc

end Pass

/-- The marks tell which of the calls began, and how those that are over ended. -/
structure Logged (calls : List Call) (begun : List (Nat × HandlerId))
    (ended : List (Nat × Option CallError)) : Prop where
  begun_nodup : (begun.map Prod.fst).Nodup
  of_begun : ∀ i h, (i, h) ∈ begun → ∃ call, calls[i]? = some call ∧ call.handler = h ∧
    call.status.hasBegun = true
  begun_of : ∀ i call, calls[i]? = some call →
    call.status.isRunning = true ∨ call.status.outcome? ≠ none → (i, call.handler) ∈ begun
  ended_nodup : (ended.map Prod.fst).Nodup
  ended_iff : ∀ i error, (i, error) ∈ ended ↔
    ∃ call, calls[i]? = some call ∧ call.status.outcome? = some error

namespace Logged
variable {pass : Pass} {begun : List (Nat × HandlerId)} {ended : List (Nat × Option CallError)}

theorem of_idle {calls : List Call} (idle : ∀ call ∈ calls, call.status = .idle) :
    Logged calls [] [] where
  begun_nodup := List.nodup_nil
  of_begun := by simp
  begun_of i call hc hs := by
    simp [idle call (List.mem_of_getElem? hc), Status.isRunning, Status.outcome?] at hs
  ended_nodup := List.nodup_nil
  ended_iff i error := by
    constructor
    · simp
    · rintro ⟨call, hc, hs⟩
      simp [idle call (List.mem_of_getElem? hc), Status.outcome?] at hs

theorem nil (h : Logged [] begun ended) : begun = [] ∧ ended = [] := by
  constructor
  · apply List.eq_nil_iff_forall_not_mem.mpr
    rintro ⟨i, handler⟩ hm
    obtain ⟨call, hc, -⟩ := h.of_begun i handler hm
    simp at hc
  · apply List.eq_nil_iff_forall_not_mem.mpr
    rintro ⟨i, error⟩ hm
    obtain ⟨call, hc, -⟩ := (h.ended_iff i error).mp hm
    simp at hc

theorem setCall (h : Logged pass.calls begun ended) {i : Nat} {call : Call}
    (at_position : pass.calls[i]? = some call) {status : Status}
    (going : call.status.outcome? = none) (still : status.outcome? = none)
    (begun_already : status.isRunning = true → call.status.isRunning = true)
    (has_begun : call.status.hasBegun = true → status.hasBegun = true) :
    Logged (pass.setCall i status).calls begun ended where
  begun_nodup := h.begun_nodup
  of_begun j handler hm := by
    obtain ⟨old, ho, rfl, hb⟩ := h.of_begun j handler hm
    rw [Pass.getElem?_setCall, ho]
    split
    · rename_i hij
      rw [← hij, at_position, Option.some.injEq] at ho
      subst ho
      exact ⟨_, rfl, rfl, has_begun hb⟩
    · exact ⟨old, rfl, rfl, hb⟩
  begun_of j c hc hs := by
    rw [Pass.getElem?_setCall] at hc
    split at hc
    · rename_i hij
      subst hij
      rw [at_position] at hc
      cases hc
      rcases hs with running | ended
      · exact h.begun_of i call at_position (.inl (begun_already running))
      · exact absurd still ended
    · exact h.begun_of j c hc hs
  ended_nodup := h.ended_nodup
  ended_iff j error := by
    rw [h.ended_iff, Pass.getElem?_setCall]
    split
    · rename_i hij
      subst hij
      simp [at_position, going, still]
    · rfl

theorem begin (h : Logged pass.calls begun ended) {i : Nat} {call : Call}
    (at_position : pass.calls[i]? = some call) (fresh : call.status.hasBegun = false)
    (number : Nat) (await : Await) (script : Script) :
    Logged (pass.setCall i (.running number await script)).calls ((i, call.handler) :: begun)
      ended := by
  have going : call.status.outcome? = none := by
    cases hs : call.status <;> simp_all [Status.hasBegun, Status.outcome?]
  refine ⟨?_, ?_, ?_, h.ended_nodup, ?_⟩
  · refine List.nodup_cons.mpr ⟨fun hm => ?_, h.begun_nodup⟩
    obtain ⟨⟨j, handler⟩, member, hj⟩ := List.mem_map.mp hm
    obtain ⟨found, hf, -, hb⟩ := h.of_begun j handler member
    rw [show j = i from hj, at_position, Option.some.injEq] at hf
    rw [← hf, fresh] at hb
    cases hb
  · intro j handler hm
    rw [Pass.getElem?_setCall]
    rcases List.mem_cons.mp hm with he | hm
    · simp only [Prod.mk.injEq] at he
      rw [if_pos he.1.symm, he.1, at_position]
      exact ⟨_, rfl, he.2.symm, rfl⟩
    · obtain ⟨old, ho, hh, hb⟩ := h.of_begun j handler hm
      rw [ho]
      split
      · exact ⟨_, rfl, hh, rfl⟩
      · exact ⟨old, rfl, hh, hb⟩
  · intro j c hc hs
    rw [Pass.getElem?_setCall] at hc
    split at hc
    · rename_i hij
      subst hij
      rw [at_position] at hc
      cases hc
      exact List.mem_cons_self
    · exact List.mem_cons_of_mem _ (h.begun_of j c hc hs)
  · intro j error
    rw [h.ended_iff, Pass.getElem?_setCall]
    split
    · rename_i hij
      subst hij
      simp [at_position, going]
    · rfl

theorem finish (h : Logged pass.calls begun ended) {i : Nat} {call : Call}
    (at_position : pass.calls[i]? = some call) (running : call.status.isRunning = true)
    (error : Option CallError) :
    Logged (pass.setCall i (.finished error)).calls begun ((i, error) :: ended) := by
  have going : call.status.outcome? = none := by
    cases hs : call.status <;> simp_all [Status.isRunning, Status.outcome?]
  have not_ended : ∀ e, (i, e) ∉ ended := by
    intro e hm
    obtain ⟨found, hf, ho⟩ := (h.ended_iff i e).mp hm
    rw [at_position, Option.some.injEq] at hf
    rw [← hf, going] at ho
    cases ho
  refine ⟨h.begun_nodup, ?_, ?_, ?_, ?_⟩
  · intro j handler hm
    obtain ⟨old, ho, hh, hb⟩ := h.of_begun j handler hm
    rw [Pass.getElem?_setCall, ho]
    split
    · exact ⟨_, rfl, hh, rfl⟩
    · exact ⟨old, rfl, hh, hb⟩
  · intro j c hc hs
    rw [Pass.getElem?_setCall] at hc
    split at hc
    · rename_i hij
      subst hij
      rw [at_position] at hc
      cases hc
      exact h.begun_of i call at_position (.inl running)
    · exact h.begun_of j c hc hs
  · refine List.nodup_cons.mpr ⟨fun hm => ?_, h.ended_nodup⟩
    obtain ⟨⟨j, e⟩, member, hj⟩ := List.mem_map.mp hm
    rw [show j = i from hj] at member
    exact not_ended e member
  · intro j e
    rw [List.mem_cons, h.ended_iff, Pass.getElem?_setCall]
    by_cases hij : i = j
    · subst hij
      simp [at_position, going, eq_comm]
    · simp [hij, Ne.symm hij]

theorem giveUp (h : Logged pass.calls begun ended) (ending : Ending) :
    Logged (pass.giveUp ending).calls begun ended := by
  have look : ∀ i, (pass.giveUp ending).calls[i]? = (pass.calls[i]?).map Call.abandon :=
    fun i => List.getElem?_map ..
  refine ⟨h.begun_nodup, ?_, ?_, h.ended_nodup, ?_⟩
  · intro i handler hm
    obtain ⟨old, ho, rfl, hb⟩ := h.of_begun i handler hm
    rw [look, ho]
    exact ⟨_, rfl, old.abandon_handler, old.abandon_hasBegun hb⟩
  · intro i call hc hs
    rw [look] at hc
    obtain ⟨old, ho, rfl⟩ := Option.map_eq_some_iff.mp hc
    rw [old.abandon_handler]
    rw [old.abandon_not_running, old.abandon_outcome?] at hs
    exact h.begun_of i old ho (.inr (hs.resolve_left (by simp)))
  · intro i error
    rw [h.ended_iff, look]
    constructor
    · rintro ⟨call, hc, hs⟩
      exact ⟨call.abandon, by rw [hc]; rfl, call.abandon_outcome?.trans hs⟩
    · rintro ⟨call, hc, hs⟩
      obtain ⟨old, ho, rfl⟩ := Option.map_eq_some_iff.mp hc
      exact ⟨old, ho, old.abandon_outcome?.symm.trans hs⟩

/-- The permit of a call that is over goes to a call that has not begun. -/
theorem returnPermit (h : Logged pass.calls begun ended) (sound : pass.Sound)
    (running : pass.phase = .running) : Logged pass.returnPermit.calls begun ended := by
  match hp : pass.permits with
  | none => rwa [Pass.returnPermit_of_none hp]
  | some ⟨free, []⟩ => rwa [Pass.returnPermit_of_nil hp]
  | some ⟨free, next :: others⟩ =>
    obtain ⟨call, hc, queued⟩ := (sound.queue running _ hp).queued next List.mem_cons_self
    rw [Pass.returnPermit_of_cons hp]
    exact h.setCall hc (by simp [queued, Status.outcome?]) rfl (by simp [Status.isRunning])
      (by simp [queued, Status.hasBegun])

end Logged

theorem Pass.Admits.not_begun {pass : Pass} {call : Call} {permits : Option Permits}
    (h : pass.Admits call permits) : call.status.hasBegun = false := by
  cases h <;> simp_all [Status.hasBegun]

section
variable (p : PassId) (i : Nat) (handler : HandlerId)

theorem begins_began (number : Nat) (occasion : Occasion) (cancelled : Bool) :
    begins p [.began p i handler number occasion cancelled] = [(i, handler)] := by simp [begins]

theorem ends_began (number : Nat) (occasion : Occasion) (cancelled : Bool) :
    ends p [.began p i handler number occasion cancelled] = [] := rfl

theorem begins_returned (error : Option CallError) :
    begins p [.returned p i handler error] = [] := rfl

theorem ends_returned (error : Option CallError) :
    ends p [.returned p i handler error] = [(i, error)] := by simp [ends]

theorem begins_caught (d : DispatcherId) (name info : String) :
    begins p [.caught p i d name info] = [] := rfl

theorem ends_caught (d : DispatcherId) (name info : String) :
    ends p [.caught p i d name info] = [(i, some (.panicked info))] := by simp [ends]

end

theorem begins_append (p : PassId) (later earlier : List Event) :
    begins p (later ++ earlier) = begins p later ++ begins p earlier := List.filterMap_append

theorem ends_append (p : PassId) (later earlier : List Event) :
    ends p (later ++ earlier) = ends p later ++ ends p earlier := List.filterMap_append

/-- One turn of a pass is logged by its mark. -/
theorem Pass.Becomes.logged {p : PassId} {pass pass' : Pass} {mark : Option Event}
    {opens : Prop} {inner : Nat → PassId → Prop} (becomes : pass.Becomes p opens inner mark pass')
    (sound : pass.Sound) {events : List Event}
    (h : Logged pass.calls (begins p events) (ends p events)) :
    Logged pass'.calls (begins p (mark.toList ++ events)) (ends p (mark.toList ++ events)) := by
  rw [begins_append, ends_append]
  cases becomes with
  | queue running at_position idle limited short =>
    exact h.setCall at_position (by simp [idle, Status.outcome?]) rfl (by simp [Status.isRunning])
      (by simp [idle, Status.hasBegun])
  | begin running at_position admits number script cancelled =>
    simp only [Option.toList_some, begins_began, ends_began, List.singleton_append, List.nil_append]
    exact h.begin at_position admits.not_begun number .ready script
  | takePermit running member admits => exact h
  | proceed running at_position begun after rest waits =>
    exact h.setCall at_position (by simp [begun, Status.outcome?]) rfl
      (by simp [begun, Status.isRunning]) (by simp [Status.hasBegun])
  | returnCall running at_position begun error =>
    simp only [Option.toList_some, begins_returned, ends_returned, List.singleton_append,
      List.nil_append]
    exact (h.finish at_position begun error).returnPermit
      (sound.finish running at_position begun error) running
  | catchPanic running at_position begun payload =>
    simp only [Option.toList_some, begins_caught, ends_caught, List.singleton_append,
      List.nil_append]
    exact (h.finish at_position begun (some (.panicked payload.info))).returnPermit
      (sound.finish running at_position begun _) running
  | complete running finished => exact h
  | giveUp isOpen incomplete => exact h.giveUp _
  | opened allowed fresh live names settings =>
    rw [sound.fresh_empty fresh] at h
    obtain ⟨none_begun, none_ended⟩ := h.nil
    rw [none_begun, none_ended]
    refine .of_idle fun call hc => ?_
    obtain ⟨i, hi⟩ := List.getElem?_of_mem hc
    obtain ⟨handler, name, -, -, rfl⟩ := List.getElem?_zipWith_eq_some.mp hi
    rfl
  | refused allowed fresh payload => exact h

theorem Pass.Becomes.other {p q : PassId} {pass pass' : Pass} {mark : Option Event}
    {opens : Prop} {inner : Nat → PassId → Prop} (becomes : pass.Becomes p opens inner mark pass')
    (other : q ≠ p) :
    begins q mark.toList = [] ∧ ends q mark.toList = [] := by
  cases becomes <;> simp [begins, ends, other.symm]

namespace World

theorem begins_history (w : World) (p : PassId) : begins p w.history = begins p w.marks := by
  unfold begins marks
  rw [List.filterMap_filter]
  congr 1
  funext event
  cases event <;> simp [Event.isMark]

theorem ends_history (w : World) (p : PassId) : ends p w.history = ends p w.marks := by
  unfold ends marks
  rw [List.filterMap_filter]
  congr 1
  funext event
  cases event <;> simp [Event.isMark]

/-- Every pass is sound and logged, and there are no marks of passes that were never started. -/
structure Recorded (w : World) : Prop where
  sound : ∀ (p : PassId) (pass : Pass), w.passes[p]? = some pass → pass.Sound
  logged : ∀ (p : PassId) (pass : Pass), w.passes[p]? = some pass →
    Logged pass.calls (begins p w.marks) (ends p w.marks)
  unstarted : ∀ p : PassId, w.passes[p]? = none → begins p w.marks = [] ∧ ends p w.marks = []

theorem sound_of_fresh {pass : Pass} (fresh : pass.phase = .fresh) (no_calls : pass.calls = []) :
    pass.Sound := ⟨by simp [no_calls], by simp [no_calls], by simp [no_calls],
      by simp [fresh], by simp [fresh]⟩

/-- What a step is to one pass: nothing, its start, or one of its turns. -/
inductive Sight (opens : PassId → Prop) (w w' : World) (p : PassId) : Prop
  | kept (same : w'.passes[p]? = w.passes[p]?) (same_begins : begins p w'.marks = begins p w.marks)
      (same_ends : ends p w'.marks = ends p w.marks)
  | started {new : Pass} (before : w.passes[p]? = none) (after : w'.passes[p]? = some new)
      (fresh : new.phase = .fresh) (no_calls : new.calls = []) (named : w.Named new.dispatcher)
      (caller : new.lineage = [] ∨ ∃ (call : CallId) (outer : Pass),
        w.passes[call.pass]? = some outer ∧ new.lineage = call :: outer.lineage)
      (same_begins : begins p w'.marks = begins p w.marks)
      (same_ends : ends p w'.marks = ends p w.marks)
  | turned {pass pass' : Pass} {mark : Option Event} (before : w.passes[p]? = some pass)
      (after : w'.passes[p]? = some pass')
      (becomes : pass.Becomes p (opens p) (w.IsInner p pass) mark pass')
      (marks : w'.marks = mark.toList ++ w.marks)

theorem PassStep.sight {opens : PassId → Prop} {w w' : World} (step : PassStep opens w w')
    (p : PassId) : Sight opens w w' p := by
  cases step with
  | unchanged passes marks => exact .kept (by rw [passes]) (by rw [marks]) (by rw [marks])
  | started new passes marks fresh no_calls named caller =>
    by_cases hp : p = w.passes.length
    · have after : w'.passes[p]? = some new := by rw [passes, hp, List.getElem?_concat_length]
      have before : w.passes[p]? = none := List.getElem?_eq_none hp.ge
      exact .started before after fresh no_calls named caller (by rw [marks]) (by rw [marks])
    · refine .kept ?_ (by rw [marks]) (by rw [marks])
      rw [passes, List.getElem?_append]
      split
      · rfl
      · rename_i old
        have behind : 1 ≤ p - w.passes.length :=
          Nat.sub_pos_of_lt (lt_of_le_of_ne (Nat.le_of_not_lt old) (Ne.symm hp))
        rw [List.getElem?_eq_none behind, List.getElem?_eq_none (Nat.le_of_not_lt old)]
  | @turned q pass pass' mark found becomes passes marks =>
    by_cases hqp : q = p
    · subst hqp
      exact .turned found (passes ▸ getElem?_set_of_some _ found) becomes marks
    · have unmarked := becomes.other (Ne.symm hqp)
      refine .kept (by rw [passes, List.getElem?_set_ne hqp]) ?_ ?_
      · rw [marks, begins_append, unmarked.1, List.nil_append]
      · rw [marks, ends_append, unmarked.2, List.nil_append]

theorem PassStep.recorded {opens : PassId → Prop} {w w' : World} (step : PassStep opens w w')
    (h : w.Recorded) : w'.Recorded := by
  refine ⟨fun p pass hp => ?_, fun p pass hp => ?_, fun p hp => ?_⟩
  · cases step.sight p with
    | kept same same_begins same_ends => exact h.sound p pass (same ▸ hp)
    | started before after fresh no_calls named caller same_begins same_ends =>
      rw [after, Option.some.injEq] at hp
      exact hp ▸ sound_of_fresh fresh no_calls
    | turned before after becomes marks =>
      rw [after, Option.some.injEq] at hp
      exact hp ▸ becomes.sound (h.sound p _ before)
  · cases step.sight p with
    | kept same same_begins same_ends =>
      rw [same_begins, same_ends]
      exact h.logged p pass (same ▸ hp)
    | started before after fresh no_calls named caller same_begins same_ends =>
      rw [after, Option.some.injEq] at hp
      rw [same_begins, same_ends, (h.unstarted p before).1, (h.unstarted p before).2, ← hp,
        no_calls]
      exact .of_idle (by simp)
    | turned before after becomes marks =>
      rw [after, Option.some.injEq] at hp
      rw [marks, ← hp]
      exact becomes.logged (h.sound p _ before) (h.logged p _ before)
  · cases step.sight p with
    | kept same same_begins same_ends =>
      rw [same_begins, same_ends]
      exact h.unstarted p (same ▸ hp)
    | started before after fresh no_calls named caller same_begins same_ends =>
      rw [after] at hp
      cases hp
    | turned before after becomes marks =>
      rw [after] at hp
      cases hp

theorem Reached.recorded {w : World} (h : w.Reached) : w.Recorded := by
  refine Reached.induction ?_ ?_ h
  · exact fun arity blueprints => ⟨by simp, by simp, fun p _ => ⟨rfl, rfl⟩⟩
  · exact fun w w' _ ih progress => progress.passStep.choose_spec.recorded ih

end World
end Fanout
