import Fanout.Proofs.Deed
import Fanout.Walk

/-! What becomes of one pass. Seen from a single pass, a run is a sequence of the few turns listed
here, each of which leaves at most one mark in the history: that a call began, or how it ended.
Nothing else that happens in the world shows. -/
namespace Fanout

/-- The events that tell that a call began, and how it ended. -/
def Event.isMark : Event → Bool
  | began _ _ _ _ _ _ => true
  | returned _ _ _ _ => true
  | caught _ _ _ _ _ => true
  | _ => false

def Call.abandon (call : Call) : Call :=
  if call.status.isUnfinished then { call with status := .abandoned } else call

namespace Pass

def giveUp (pass : Pass) (ending : Ending) : Pass :=
  { pass with calls := pass.calls.map Call.abandon, phase := .closed ending }

def returnPermit (pass : Pass) : Pass :=
  match pass.permits with
  | some permits =>
      match permits.giveBack with
      | (left, some next) => { pass with permits := some left }.setCall next .granted
      | (left, none) => { pass with permits := some left }
  | none => pass

def retire (pass : Pass) (i : Nat) (error : Option CallError) : Pass :=
  (pass.setCall i (.finished error)).returnPermit

/-- A call may begin, and leaves these permits. -/
inductive Admits (pass : Pass) (call : Call) : Option Permits → Prop
  | freely (idle : call.status = .idle) (unlimited : pass.permits = none) : Admits pass call none
  | taking {permits left : Permits} (idle : call.status = .idle)
      (limited : pass.permits = some permits) (free : permits.take? = some left) :
      Admits pass call (some left)
  | granted (granted : call.status = .granted) : Admits pass call pass.permits

/-- The turns in the life of the pass with this number, each with its mark. The pass may be opened
if that is allowed, and a call may come to wait for what counts as inner to it. -/
inductive Becomes (p : PassId) (opens : Prop) (inner : Nat → PassId → Prop) (pass : Pass) :
    Option Event → Pass → Prop
  | queue {i : Nat} {call : Call} {permits : Permits} (running : pass.phase = .running)
      (at_position : pass.calls[i]? = some call) (idle : call.status = .idle)
      (limited : pass.permits = some permits) (short : permits.take? = none) :
      Becomes p opens inner pass none
        ({ pass with permits := some (permits.enqueue i) }.setCall i .queued)
  | begin {i : Nat} {call : Call} {permits : Option Permits} (running : pass.phase = .running)
      (at_position : pass.calls[i]? = some call) (admits : pass.Admits call permits)
      (number : Nat) (script : Script) (cancelled : Bool) :
      Becomes p opens inner pass (some (.began p i call.handler number pass.occasion cancelled))
        ({ pass with permits }.setCall i (.running number .ready script))
  /-- A call that should begin could not, for want of a handler. -/
  | takePermit {call : Call} {permits : Option Permits} (running : pass.phase = .running)
      (member : call ∈ pass.calls) (admits : pass.Admits call permits) :
      Becomes p opens inner pass none { pass with permits }
  | proceed {i : Nat} {call : Call} {number : Nat} {before : Await} {todo : Script}
      (running : pass.phase = .running) (at_position : pass.calls[i]? = some call)
      (begun : call.status = .running number before todo) (after : Await) (rest : Script)
      (waits : ∀ q propagate, after = .pass q propagate → inner i q) :
      Becomes p opens inner pass none (pass.setCall i (.running number after rest))
  | returnCall {i : Nat} {call : Call} (running : pass.phase = .running)
      (at_position : pass.calls[i]? = some call) (begun : call.status.isRunning = true)
      (error : Option CallError) :
      Becomes p opens inner pass (some (.returned p i call.handler error)) (pass.retire i error)
  | catchPanic {i : Nat} {call : Call} (running : pass.phase = .running)
      (at_position : pass.calls[i]? = some call) (begun : call.status.isRunning = true)
      (payload : Payload) :
      Becomes p opens inner pass (some (.caught p i pass.dispatcher call.name payload.info))
        (pass.retire i (some (.panicked payload.info)))
  | complete (running : pass.phase = .running) (finished : pass.isOver = true) :
      Becomes p opens inner pass none { pass with phase := .closed (.completed pass.error?) }
  | giveUp (isOpen : pass.phase.isOpen = true) {ending : Ending}
      (incomplete : ∀ error, ending ≠ .completed error) :
      Becomes p opens inner pass none (pass.giveUp ending)
  | opened (allowed : opens) (fresh : pass.phase = .fresh) (live : List HandlerId)
      (names : List String) (settings : Settings) :
      Becomes p opens inner pass none { pass with
        phase := .running
        calls := live.zipWith (fun handler name => { handler, name }) names
        permits := settings.permits }
  | refused (allowed : opens) (fresh : pass.phase = .fresh) (payload : Payload) :
      Becomes p opens inner pass none { pass with phase := .closed (.panicked payload) }

end Pass

namespace World

/-- The marks that all passes left so far, the latest first. -/
def marks (w : World) : List Event := w.history.filter Event.isMark

/-- What a change or an opening does to the passes of a world, and to the marks. Some passes may be
opened by it. -/
inductive PassStep (opens : PassId → Prop) (w w' : World) : Prop
  | unchanged (passes : w'.passes = w.passes) (marks : w'.marks = w.marks)
  | started (pass : Pass) (passes : w'.passes = w.passes ++ [pass]) (marks : w'.marks = w.marks)
      (fresh : pass.phase = .fresh) (no_calls : pass.calls = []) (named : w.Named pass.dispatcher)
      (caller : pass.lineage = [] ∨ ∃ (call : CallId) (outer : Pass),
        w.passes[call.pass]? = some outer ∧ pass.lineage = call :: outer.lineage)
  | turned {p : PassId} {pass pass' : Pass} {mark : Option Event}
      (found : w.passes[p]? = some pass)
      (becomes : pass.Becomes p (opens p) (w.IsInner p pass) mark pass')
      (passes : w'.passes = w.passes.set p pass') (marks : w'.marks = mark.toList ++ w.marks)

theorem release_eq (w : World) (h : HandlerId) : w.release h =
    { w.letGo h with
      history := if (w.alive h && !(w.letGo h).alive h) = true then .reclaimed h :: w.history
        else w.history } := by
  unfold release
  split <;> rfl

@[simp] theorem marks_release (w : World) (h : HandlerId) : (w.release h).marks = w.marks := by
  rw [release_eq]
  unfold marks
  dsimp only
  split <;> simp [Event.isMark]

theorem marks_releaseAll (w : World) (hs : List HandlerId) : (w.releaseAll hs).marks = w.marks := by
  induction hs generalizing w with
  | nil => rfl
  | cons h hs ih => exact (ih (w.release h)).trans (marks_release w h)

theorem marks_retainAll (w : World) (hs : List HandlerId) : (w.retainAll hs).marks = w.marks := by
  induction hs generalizing w with
  | nil => rfl
  | cons h hs ih => exact ih (w.retain h)

theorem Deed.passes {w w' : World} (h : Deed w w') : w'.passes = w.passes := by
  cases h with
  | drop found owned => exact passes_release ..
  | unregisterEmpty d => exact passes_unregisterWeak ..
  | dropGuard found => exact passes_dropGuard ..
  | _ => rfl

theorem marks_dropGuard (w : World) (guard : Guard) : (w.dropGuard guard).marks = w.marks := by
  obtain ⟨_ | d, key, generation⟩ := guard
  · rfl
  · unfold dropGuard releaseGuard
    dsimp only
    split <;> rfl

theorem Deed.marks {w w' : World} (h : Deed w w') : w'.marks = w.marks := by
  cases h with
  | drop found owned => exact marks_release ..
  | unregisterEmpty d => rw [setRegistry_remove_nowhere]; rfl
  | dropGuard found => exact marks_dropGuard ..
  | _ => rfl

theorem modify_eq_set {α : Type} {l : List α} {i : Nat} {a : α} (f : α → α) (h : l[i]? = some a) :
    l.modify i f = l.set i (f a) := by
  apply List.ext_getElem?
  intro j
  rw [List.getElem?_modify, List.getElem?_set]
  by_cases hij : i = j
  · subst hij
    obtain ⟨hi, ha⟩ := List.getElem?_eq_some_iff.mp h
    simp [hi, ha]
  · simp [hij]

theorem set_eq_self {α : Type} {l : List α} {i : Nat} {a : α} (h : l[i]? = some a) :
    l.set i a = l := by
  obtain ⟨hi, rfl⟩ := List.getElem?_eq_some_iff.mp h
  exact List.set_getElem_self hi

theorem getElem?_set_of_some {α : Type} {l : List α} {i : Nat} {a : α} (b : α)
    (h : l[i]? = some a) : (l.set i b)[i]? = some b := by
  have hi : i < l.length := (List.getElem?_eq_some_iff.mp h).1
  simp [hi]

section
variable {w : World} {p : PassId} {pass : Pass} (found : w.passes[p]? = some pass)
include found

theorem passes_setPermits (permits : Permits) :
    (w.setPermits p permits).passes = w.passes.set p { pass with permits := some permits } :=
  modify_eq_set _ found

theorem passes_setStatus (i : Nat) (status : Status) :
    (w.setStatus p i status).passes = w.passes.set p (pass.setCall i status) :=
  modify_eq_set _ found

theorem close_eq (ending : Ending) : w.close p ending =
    (w.modifyPass p fun pass => { pass with phase := .closed ending }).record
      (.closed p pass.dispatcher ending) := by
  simp [close, found]

theorem passes_close (ending : Ending) :
    (w.close p ending).passes = w.passes.set p { pass with phase := .closed ending } := by
  rw [close_eq found]
  exact modify_eq_set _ found

theorem marks_close (ending : Ending) : (w.close p ending).marks = w.marks := by
  rw [close_eq found]
  rfl

theorem passes_returnPermit :
    (w.returnPermit p).passes = w.passes.set p pass.returnPermit := by
  obtain ⟨dispatcher, token, occasion, lineage, phase, calls, permits⟩ := pass
  unfold returnPermit Pass.returnPermit
  simp only [found]
  rcases permits with _ | ⟨free, _ | ⟨next, others⟩⟩
  · exact (set_eq_self found).symm
  · exact passes_setPermits found _
  · have first := passes_setPermits found ⟨free, others⟩
    have again : (w.setPermits p ⟨free, others⟩).passes[p]? = some _ :=
      first ▸ getElem?_set_of_some _ found
    exact (passes_wake _ _).trans ((passes_setStatus again next .granted).trans
      (by rw [first, List.set_set]; rfl))

theorem passes_retire (i : Nat) (handler : HandlerId) (error : Option CallError) :
    (w.retire p i handler error).passes = w.passes.set p (pass.retire i error) := by
  have first := passes_setStatus found i (.finished error)
  have released : ((w.setStatus p i (.finished error)).release handler).passes[p]? =
      some (pass.setCall i (.finished error)) := by
    rw [passes_release, first]
    exact getElem?_set_of_some _ found
  unfold retire
  rw [passes_returnPermit released, passes_release, first, List.set_set]
  rfl

theorem passes_returnCall (i : Nat) (handler : HandlerId) (error : Option CallError) :
    (w.returnCall p i handler error).passes = w.passes.set p (pass.retire i error) :=
  passes_retire (w := (w.setTally w.tally.returnedOne).record (.returned p i handler error))
    found i handler error

theorem passes_catchPanic (i : Nat) (d : DispatcherId) (call : Call) (payload : Payload) :
    (w.catchPanic p i d call payload).passes =
      w.passes.set p (pass.retire i (some (.panicked payload.info))) :=
  passes_retire (w := (w.cutCall p i call.handler).record (.caught p i d call.name payload.info))
    found i call.handler _

end

@[simp] theorem marks_wake (w : World) (call : CallId) : (w.wake call).marks = w.marks := by
  obtain ⟨waking, h⟩ := wake_eq w call
  rw [h]
  rfl

theorem marks_returnPermit (w : World) (p : PassId) : (w.returnPermit p).marks = w.marks := by
  unfold returnPermit
  split
  · split
    · exact marks_wake ..
    · rfl
  · rfl

theorem marks_retire (w : World) (p : PassId) (i : Nat) (handler : HandlerId)
    (error : Option CallError) : (w.retire p i handler error).marks = w.marks :=
  (marks_returnPermit ..).trans (marks_release ..)

theorem call?_of_found {w : World} {p : PassId} {pass : Pass} (found : w.passes[p]? = some pass)
    (i : Nat) : w.call? p i = pass.calls[i]? := by
  simp [call?, found]

theorem passes_abandonCall {w : World} {p : PassId} {pass : Pass}
    (found : w.passes[p]? = some pass) (i : Nat) : (w.abandonCall p i).passes =
      w.passes.set p { pass with calls := pass.calls.modify i Call.abandon } := by
  unfold abandonCall
  rw [call?_of_found found]
  cases hc : pass.calls[i]? with
  | none =>
    rw [List.modify_eq_self (List.getElem?_eq_none_iff.mp hc)]
    exact (set_eq_self found).symm
  | some call =>
    have given : call.status.isUnfinished = true →
        pass.setCall i .abandoned = { pass with calls := pass.calls.modify i Call.abandon } := by
      intro unfinished
      unfold Pass.setCall
      rw [modify_eq_set _ hc, modify_eq_set _ hc]
      simp [Call.abandon, unfinished]
    dsimp only
    split
    · rename_i running
      rw [passes_release, ← given (Status.isUnfinished_of_isRunning running)]
      exact passes_setStatus found i .abandoned
    · split
      · rename_i unfinished
        rw [passes_release, ← given unfinished]
        exact passes_setStatus found i .abandoned
      · rename_i gone
        rw [modify_eq_set _ hc]
        simp only [Call.abandon, gone, Bool.false_eq_true, if_false]
        rw [set_eq_self hc]
        exact (set_eq_self found).symm

theorem passes_abandonCalls {w : World} {p : PassId} {pass : Pass}
    (found : w.passes[p]? = some pass) : (w.abandonCalls p pass).passes =
      w.passes.set p { pass with calls := pass.calls.map Call.abandon } := by
  -- after so many calls, those before are given up and the others are as they were
  have upTo : ∀ n, ((List.range n).foldl (fun w i => w.abandonCall p i) w).passes = w.passes.set p
      { pass with
        calls := pass.calls.mapIdx fun i call => if i < n then call.abandon else call } := by
    intro n
    induction n with
    | zero => exact (set_eq_self (by simpa [List.mapIdx_eq_zipIdx_map] using found)).symm
    | succ n ih =>
      rw [List.range_succ, List.foldl_append]
      refine (passes_abandonCall (ih ▸ getElem?_set_of_some _ found) n).trans ?_
      rw [ih, List.set_set]
      congr 2
      apply List.ext_getElem?
      intro j
      simp only [List.getElem?_modify, List.getElem?_mapIdx]
      rcases Nat.lt_trichotomy j n with h | rfl | h
      · simp [h, h.ne', Nat.lt_succ_of_lt h]
      · simp
      · simp [h.ne, Nat.not_lt.mpr h.le, Nat.not_lt.mpr (Nat.succ_le_of_lt h)]
  refine (upTo pass.calls.length).trans ?_
  congr 2
  apply List.ext_getElem?
  intro j
  simp only [List.getElem?_mapIdx, List.getElem?_map]
  by_cases h : j < pass.calls.length
  · simp [h]
  · simp [List.getElem?_eq_none (Nat.le_of_not_lt h)]

theorem marks_abandonCall (w : World) (p : PassId) (i : Nat) :
    (w.abandonCall p i).marks = w.marks := by
  unfold abandonCall
  split
  · split
    · exact marks_release ..
    · split
      · exact marks_release ..
      · rfl
  · rfl

theorem marks_abandonCalls (w : World) (p : PassId) (pass : Pass) :
    (w.abandonCalls p pass).marks = w.marks := by
  have all : ∀ (is : List Nat) (v : World),
      (is.foldl (fun w i => w.abandonCall p i) v).marks = v.marks := by
    intro is
    induction is with
    | nil => exact fun v => rfl
    | cons i is ih => exact fun v => (ih _).trans (marks_abandonCall v p i)
  exact all _ w

/-- Giving up a call touches neither the dispatchers nor who is to be polled. -/
theorem abandonCall_aside (w : World) (p : PassId) (i : Nat) :
    (w.abandonCall p i).dispatchers = w.dispatchers ∧ (w.abandonCall p i).waking = w.waking := by
  unfold abandonCall
  split
  · split
    · rw [release_eq]; exact ⟨rfl, rfl⟩
    · split
      · rw [release_eq]; exact ⟨rfl, rfl⟩
      · exact ⟨rfl, rfl⟩
  · exact ⟨rfl, rfl⟩

theorem abandonPass_aside (w : World) (p : PassId) (ending : Ending) :
    (w.abandonPass p ending).dispatchers = w.dispatchers ∧
      (w.abandonPass p ending).waking = w.waking := by
  have all : ∀ (is : List Nat) (v : World),
      (is.foldl (fun w i => w.abandonCall p i) v).dispatchers = v.dispatchers ∧
        (is.foldl (fun w i => w.abandonCall p i) v).waking = v.waking := by
    intro is
    induction is with
    | nil => exact fun v => ⟨rfl, rfl⟩
    | cons i is ih =>
      intro v
      obtain ⟨dispatchers, waking⟩ := abandonCall_aside v p i
      exact ⟨(ih _).1.trans dispatchers, (ih _).2.trans waking⟩
  have closed : ∀ v : World, (v.close p ending).dispatchers = v.dispatchers ∧
      (v.close p ending).waking = v.waking := by
    intro v
    unfold close
    split <;> exact ⟨rfl, rfl⟩
  unfold abandonPass
  split
  · split
    · exact ⟨(closed _).1.trans (all _ w).1, (closed _).2.trans (all _ w).2⟩
    · exact ⟨rfl, rfl⟩
  · exact ⟨rfl, rfl⟩

theorem abandonPass_eq {w : World} {p : PassId} {pass : Pass} (found : w.passes[p]? = some pass)
    (isOpen : pass.phase.isOpen = true) (ending : Ending) :
    w.abandonPass p ending = (w.abandonCalls p pass).close p ending := by
  simp [abandonPass, found, isOpen]

theorem passes_abandonPass {w : World} {p : PassId} {pass : Pass}
    (found : w.passes[p]? = some pass) (isOpen : pass.phase.isOpen = true) (ending : Ending) :
    (w.abandonPass p ending).passes = w.passes.set p (pass.giveUp ending) := by
  have here := (passes_abandonCalls found) ▸ getElem?_set_of_some _ found
  rw [abandonPass_eq found isOpen, passes_close here, passes_abandonCalls found, List.set_set]
  rfl

theorem passes_survey (w : World) (p : PassId) (d : DispatcherId) :
    (w.survey p d).passes = w.passes := by
  unfold survey sweep
  dsimp only
  split <;> exact passes_retainAll ..

theorem marks_survey (w : World) (p : PassId) (d : DispatcherId) :
    (w.survey p d).marks = w.marks := by
  unfold survey sweep
  dsimp only
  split <;> exact marks_retainAll ..

theorem passes_setCalls {w : World} {p : PassId} {pass : Pass} (found : w.passes[p]? = some pass)
    (calls : List Call) (permits : Option Permits) (due : List Nat) :
    ((w.setCalls p calls permits).makeDue p due).passes =
      w.passes.set p { pass with phase := .running, calls, permits } :=
  modify_eq_set _ found

def firstCalls (live : List HandlerId) (names : List String) : List Call :=
  live.zipWith (fun handler name => { handler, name }) names

theorem openPass_ok {w : World} {p : PassId} {pass : Pass} {names : List String}
    (read : (w.survey p pass.dispatcher).readNames (w.snapshotOf pass.dispatcher).live =
      .ok names) :
    w.openPass p pass =
      (((w.survey p pass.dispatcher).setCalls p
          (firstCalls (w.snapshotOf pass.dispatcher).live names)
          ((w.survey p pass.dispatcher).settings pass.dispatcher).permits).makeDue p
        (List.range (firstCalls (w.snapshotOf pass.dispatcher).live names).length), none) := by
  unfold openPass
  simp only [read]
  rfl

theorem openPass_error {w : World} {p : PassId} {pass : Pass} {payload : Payload}
    (read : (w.survey p pass.dispatcher).readNames (w.snapshotOf pass.dispatcher).live =
      .error payload) :
    w.openPass p pass =
      (((w.survey p pass.dispatcher).releaseAll (w.snapshotOf pass.dispatcher).live).close p
        (.panicked payload), some payload) := by
  unfold openPass
  simp only [read]

theorem openPass_fst (w : World) (p : PassId) (pass : Pass) :
    (w.openPass p pass).1 = (w.survey p pass.dispatcher).enterPass p pass.dispatcher
      (w.snapshotOf pass.dispatcher).live := by
  unfold openPass enterPass
  cases read : (w.survey p pass.dispatcher).readNames (w.snapshotOf pass.dispatcher).live <;>
    simp only [read]

section
variable {w : World} {p : PassId} {pass : Pass} (found : w.passes[p]? = some pass)
include found

theorem passes_enterPass_ok {live : List HandlerId} {names : List String}
    (read : w.readNames live = .ok names) (d : DispatcherId) :
    (w.enterPass p d live).passes = w.passes.set p { pass with
      phase := .running, calls := firstCalls live names, permits := (w.settings d).permits } := by
  unfold enterPass
  rw [read]
  exact passes_setCalls found _ _ _

theorem passes_enterPass_error {live : List HandlerId} {payload : Payload}
    (read : w.readNames live = .error payload) (d : DispatcherId) :
    (w.enterPass p d live).passes =
      w.passes.set p { pass with phase := .closed (.panicked payload) } := by
  have released : (w.releaseAll live).passes[p]? = some pass := by rwa [passes_releaseAll]
  unfold enterPass
  rw [read]
  dsimp only
  rw [passes_close released, passes_releaseAll]

theorem marks_enterPass (d : DispatcherId) (live : List HandlerId) :
    (w.enterPass p d live).marks = w.marks := by
  unfold enterPass
  split
  · have released : (w.releaseAll live).passes[p]? = some pass := by rwa [passes_releaseAll]
    rw [marks_close released, marks_releaseAll]
  · rfl

theorem enterPass_becomes (fresh : pass.phase = .fresh) {opens : Prop} (allowed : opens)
    (inner : Nat → PassId → Prop) (d : DispatcherId) (live : List HandlerId) :
    ∃ pass', pass.Becomes p opens inner none pass' ∧
      (w.enterPass p d live).passes = w.passes.set p pass' := by
  cases read : w.readNames live with
  | error payload =>
    exact ⟨_, .refused allowed fresh payload, passes_enterPass_error found read d⟩
  | ok names =>
    exact ⟨_, .opened allowed fresh live names (w.settings d), passes_enterPass_ok found read d⟩

theorem passes_openPass_ok {names : List String}
    (read : (w.survey p pass.dispatcher).readNames (w.snapshotOf pass.dispatcher).live =
      .ok names) :
    (w.openPass p pass).1.passes = w.passes.set p { pass with
      phase := .running
      calls := firstCalls (w.snapshotOf pass.dispatcher).live names
      permits := ((w.survey p pass.dispatcher).settings pass.dispatcher).permits } := by
  have surveyed : (w.survey p pass.dispatcher).passes[p]? = some pass :=
    (passes_survey ..).symm ▸ found
  rw [openPass_fst, passes_enterPass_ok surveyed read, passes_survey]

theorem passes_openPass_error {payload : Payload}
    (read : (w.survey p pass.dispatcher).readNames (w.snapshotOf pass.dispatcher).live =
      .error payload) :
    (w.openPass p pass).1.passes =
      w.passes.set p { pass with phase := .closed (.panicked payload) } := by
  have surveyed : (w.survey p pass.dispatcher).passes[p]? = some pass :=
    (passes_survey ..).symm ▸ found
  rw [openPass_fst, passes_enterPass_error surveyed read, passes_survey]

theorem PassStep.opening (fresh : pass.phase = .fresh) :
    PassStep (· = p) w (w.openPass p pass).1 := by
  have surveyed : (w.survey p pass.dispatcher).passes[p]? = some pass :=
    (passes_survey ..).symm ▸ found
  obtain ⟨pass', becomes, passes⟩ := enterPass_becomes surveyed fresh (show p = p from rfl)
    (w.IsInner p pass) pass.dispatcher (w.snapshotOf pass.dispatcher).live
  refine .turned found becomes ?_ ?_
  · rw [openPass_fst, passes, passes_survey]
  · rw [openPass_fst, marks_enterPass surveyed, marks_survey]
    rfl

end

theorem Admits.pass {w admitted : World} {p : PassId} {pass : Pass} {call : Call}
    (found : w.passes[p]? = some pass) (admits : w.Admits p pass call admitted) :
    ∃ permits, pass.Admits call permits ∧ admitted.marks = w.marks ∧
      admitted.passes = w.passes.set p { pass with permits } := by
  cases admits with
  | freely idle unlimited =>
    exact ⟨none, .freely idle unlimited, rfl, by rw [← unlimited]; exact (set_eq_self found).symm⟩
  | taking idle limited free => exact ⟨_, .taking idle limited free, rfl, passes_setPermits found _⟩
  | granted granted => exact ⟨pass.permits, .granted granted, rfl, (set_eq_self found).symm⟩

theorem beginCall_becomes {w admitted : World} {p : PassId} {i : Nat} {pass : Pass} {call : Call}
    (call_of : w.IsCall p i pass call) (admits : w.Admits p pass call admitted) (opens : Prop) :
    ∃ mark pass', pass.Becomes p opens (w.IsInner p pass) mark pass' ∧ pass'.phase = .running ∧
      (admitted.beginCall p i pass call).passes = w.passes.set p pass' ∧
      (admitted.beginCall p i pass call).marks = mark.toList ++ w.marks := by
  obtain ⟨permits, pass_admits, marks, passes⟩ := admits.pass call_of.found
  have here : admitted.passes[p]? = some { pass with permits } :=
    passes ▸ getElem?_set_of_some _ call_of.found
  unfold beginCall
  split
  · rename_i handler _
    refine ⟨_, _, .begin call_of.running call_of.at_position pass_admits handler.begun
      (handler.script handler.begun) (admitted.isCancelled pass.token), call_of.running, ?_, ?_⟩
    · exact (passes_setStatus (w := admitted.countCall call.handler) here i _).trans
        (by rw [show (admitted.countCall call.handler).passes = admitted.passes from rfl, passes,
          List.set_set])
    · exact congrArg (_ :: ·) marks
  · have member := List.mem_of_getElem? call_of.at_position
    exact ⟨none, _, .takePermit call_of.running member pass_admits, call_of.running, passes, marks⟩

/-- No change opens a pass. -/
theorem Change.passStep {w w' : World} (h : Change w w') : PassStep (fun _ => False) w w' := by
  cases h with
  | deed deed => exact .unchanged deed.passes deed.marks
  | start named token sender args caller => exact .started _ rfl rfl rfl rfl named caller
  | @queue p i pass call permits call_of idle limited short =>
    have first := passes_setPermits call_of.found (permits.enqueue i)
    refine .turned call_of.found (.queue call_of.running call_of.at_position idle limited short)
      ?_ rfl
    rw [passes_setStatus (first ▸ getElem?_set_of_some _ call_of.found), first, List.set_set]
  | begin call_of admits =>
    obtain ⟨mark, pass', becomes, -, passes, marks⟩ := beginCall_becomes call_of admits False
    exact .turned call_of.found becomes passes marks
  | proceed call_of begun after rest waits =>
    exact .turned call_of.found
      (.proceed call_of.running call_of.at_position begun after rest waits)
      (passes_setStatus call_of.found _ _) rfl
  | returnCall call_of begun error =>
    exact .turned call_of.found (.returnCall call_of.running call_of.at_position begun error)
      (passes_returnCall call_of.found _ _ _) (marks_retire ..)
  | catchPanic call_of begun isolated payload =>
    exact .turned call_of.found (.catchPanic call_of.running call_of.at_position begun payload)
      (passes_catchPanic call_of.found _ _ _ _) (marks_retire ..)
  | complete found running finished =>
    exact .turned found (.complete running finished) (passes_close found _) (marks_close found _)
  | giveUp found isOpen incomplete unisolated =>
    refine .turned found (.giveUp isOpen incomplete) (passes_abandonPass found isOpen _) ?_
    rw [abandonPass_eq found isOpen,
      marks_close (passes_abandonCalls found ▸ getElem?_set_of_some _ found)]
    exact marks_abandonCalls ..

theorem Progress.passStep {w w' : World} (h : Progress w w') : ∃ opens, PassStep opens w w' := by
  cases h with
  | change change => exact ⟨_, change.passStep⟩
  | opening found fresh => exact ⟨_, .opening found fresh⟩

end World
end Fanout
