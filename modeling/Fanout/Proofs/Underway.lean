import Fanout.Proofs.Independent
import Fanout.Proofs.Standstill
import Fanout.Proofs.Taming
import Fanout.Trace

/-! A pass that is alone. Its calls are those of independent handlers, so each of them goes through
states that are known beforehand, whatever the others do and whenever it is polled: what it still has
to do, what its handler has told, and what has become of the handler. -/
namespace Fanout

def Event.traceOf (h : HandlerId) (event : Event) : Option Trace :=
  event.trace?.bind fun e => if e.1 = h then some e.2 else none

def World.tracesOf (w : World) (h : HandlerId) : List Trace :=
  w.history.reverse.filterMap (Event.traceOf h)

namespace Status

/-- The call did not begin, and may still do so. -/
def isAhead (status : Status) : Bool := status.isUnfinished && !status.hasBegun

end Status

namespace Pass

/-- All of a pass but its calls and their permits. -/
def outline (pass : Pass) : Pass := { pass with calls := [], permits := none }

theorem outline_returnPermit (pass : Pass) : pass.returnPermit.outline = pass.outline := by
  match hp : pass.permits with
  | none => rw [returnPermit_of_none hp]
  | some ⟨free, []⟩ => rw [returnPermit_of_nil hp]; rfl
  | some ⟨free, next :: others⟩ => rw [returnPermit_of_cons hp]; rfl

theorem outline_retire (pass : Pass) (i : Nat) (error : Option CallError) :
    (pass.retire i error).outline = pass.outline := outline_returnPermit _

/-- Beside the call that is over, nothing happens but that one that waits is handed the permit. -/
theorem retire_other {pass : Pass} {i j : Nat} (other : i ≠ j) (error : Option CallError)
    (queue : ∀ permits, pass.permits = some permits → pass.Queued permits) {after : Call}
    (at_j : (pass.retire i error).calls[j]? = some after) :
    ∃ before, pass.calls[j]? = some before ∧ (after.status = before.status ∨
      before.status = .queued ∧ after.status = .granted) := by
  have same : (pass.setCall i (.finished error)).calls[j]? = pass.calls[j]? := by
    rw [getElem?_setCall, if_neg other]
  unfold retire at at_j
  match hp : pass.permits with
  | none =>
    rw [returnPermit_of_none (by exact hp), same] at at_j
    exact ⟨after, at_j, .inl rfl⟩
  | some ⟨free, []⟩ =>
    rw [returnPermit_of_nil (by exact hp)] at at_j
    exact ⟨after, same ▸ at_j, .inl rfl⟩
  | some ⟨free, next :: others⟩ =>
    rw [returnPermit_of_cons (by exact hp), getElem?_setCall] at at_j
    split at at_j
    · rename_i handed
      obtain ⟨waiter, at_next, queued⟩ := (queue _ hp).queued next List.mem_cons_self
      obtain ⟨old, at_old, rfl⟩ := Option.map_eq_some_iff.mp at_j
      exact ⟨waiter, handed ▸ at_next, .inr ⟨queued, rfl⟩⟩
    · exact ⟨after, same ▸ at_j, .inl rfl⟩

end Pass

/-- A handler that a pass calls: its name, and what it is before the pass takes a reference to it. -/
structure Part where
  handler : HandlerId
  name : String
  origin : Handler
  deriving DecidableEq, Repr

namespace Part

def script (part : Part) : Script := part.origin.script part.origin.begun

/-- What the handler is while its call has this status. -/
def during (part : Part) (status : Status) : Handler :=
  { part.origin with
    strong := part.origin.strong + status.isUnfinished.toNat
    begun := part.origin.begun + status.hasBegun.toNat }

theorem during_of_isAhead (part : Part) {status : Status} (ahead : status.isAhead = true) :
    part.during status = { part.origin with strong := part.origin.strong + 1 } := by
  cases status <;> first | rfl | cases ahead

end Part

/-- A pass of which the calls are independent of each other, and none brings it down. -/
structure Solo where
  before : World
  dispatchers : List Dispatcher
  pass : PassId
  dispatcher : DispatcherId
  token : Token
  occasion : Occasion
  parts : List Part
  distinct : (parts.map Part.handler).Nodup
  alive : ∀ part ∈ parts, part.origin.alive = true
  independent : ∀ part ∈ parts, part.script.Independent
  contained : (((dispatchers[dispatcher]?).getD {}).settings.isolatePanics = true) ∨
    ∀ part ∈ parts, ∃ error,
      part.script.verdict occasion (before.isCancelled token) = .returned error

namespace Solo
variable (s : Solo)

def settings : Settings := ((s.dispatchers[s.dispatcher]?).getD {}).settings

/-- Whether the token of the pass is cancelled, all the time. -/
def cancelled : Bool := s.before.isCancelled s.token

/-- All of the pass but its calls and their permits, while it is under way. -/
def outline : Pass :=
  { dispatcher := s.dispatcher, token := s.token, occasion := s.occasion, phase := .running }

def verdict (part : Part) : Verdict := part.script.verdict s.occasion s.cancelled

def notes (script : Script) : List Trace := (script.notes s.occasion s.cancelled).map .note

def last (part : Part) : Trace :=
  match s.verdict part with
  | .returned error => .ended error
  | .panicked _ => .cut

def telling (part : Part) : List Trace :=
  .call part.origin.begun s.occasion s.cancelled :: (s.notes part.script ++ [s.last part])

def untold (part : Part) : Status → List Trace
  | .running _ _ rest => s.notes rest ++ [s.last part]
  | .finished _ => []
  | .abandoned => []
  | _ => s.telling part

/-- The status is one that the call of a handler goes through. -/
def Agrees (part : Part) : Status → Prop
  | .running number await rest => number = part.origin.begun ∧
      (await = .ready ∨ ∃ n, await = .turns n) ∧ rest.Independent ∧
        rest.verdict s.occasion s.cancelled = s.verdict part
  | .finished error => error = (s.verdict part).error
  | .abandoned => False
  | _ => True

/-- The handler is what it should be while its call has this status. -/
structure Fits (w : World) (part : Part) (status : Status) : Prop where
  agrees : s.Agrees part status
  found : w.handlers.find? part.handler = some (part.during status)
  told : w.tracesOf part.handler ++ s.untold part status =
    s.before.tracesOf part.handler ++ s.telling part

/-- The pass is under way, and each of its calls is where it should be. -/
structure Underway (w : World) (pass : Pass) : Prop where
  found : w.passes[s.pass]? = some pass
  outline : pass.outline = s.outline
  plan : pass.plan = s.parts.map fun part => (part.handler, part.name)
  sound : pass.Sound
  metered : pass.Metered s.settings.limit
  dispatchers : w.dispatchers = s.dispatchers
  cancelled : w.cancelled = s.before.cancelled
  fits : ∀ (i : Nat) (call : Call) (part : Part), pass.calls[i]? = some call →
    s.parts[i]? = some part → s.Fits w part call.status
  others : ∀ h, h ∉ s.parts.map Part.handler →
    w.handlers.find? h = s.before.handlers.find? h ∧ w.tracesOf h = s.before.tracesOf h

end Solo

namespace World

theorem Admits.isAhead {w admitted : World} {p : PassId} {pass : Pass} {call : Call}
    (admits : w.Admits p pass call admitted) : call.status.isAhead = true := by
  cases admits <;> simp_all [Status.isAhead, Status.isUnfinished, Status.hasBegun]

/-- Nothing was done but to this handler, to the passes, and to who is to be polled. -/
structure Only (h : HandlerId) (w w' : World) : Prop where
  dispatchers : w'.dispatchers = w.dispatchers
  cancelled : w'.cancelled = w.cancelled
  handlers : ∀ k, k ≠ h → w'.handlers.find? k = w.handlers.find? k
  traces : ∀ k, k ≠ h → w'.tracesOf k = w.tracesOf k

theorem tracesOf_record (w : World) (event : Event) (h : HandlerId) :
    (w.record event).tracesOf h = w.tracesOf h ++ (event.traceOf h).toList := by
  unfold tracesOf record
  rw [List.reverse_cons, List.filterMap_append]
  cases hs : event.traceOf h <;> simp [hs]

namespace Only
variable {h : HandlerId} {w w' w'' : World}

theorem of_eq (dispatchers : w'.dispatchers = w.dispatchers) (cancelled : w'.cancelled = w.cancelled)
    (handlers : w'.handlers = w.handlers) (history : w'.history = w.history) : Only h w w' :=
  ⟨dispatchers, cancelled, fun _ _ => by rw [handlers], fun _ _ => by rw [tracesOf, tracesOf, history]⟩

theorem trans (first : Only h w w') (second : Only h w' w'') : Only h w w'' :=
  ⟨second.dispatchers.trans first.dispatchers, second.cancelled.trans first.cancelled,
    fun k other => (second.handlers k other).trans (first.handlers k other),
    fun k other => (second.traces k other).trans (first.traces k other)⟩

theorem modifyHandler (w : World) (h : HandlerId) (f : Handler → Handler) :
    Only h w (w.modifyHandler h f) where
  dispatchers := rfl
  cancelled := rfl
  handlers k other := by
    simp only [World.modifyHandler, Roster.find?_modify, if_neg other.symm]
  traces _ _ := rfl

theorem record (w : World) (event : Event) (own : ∀ k, k ≠ h → event.traceOf k = none) :
    Only h w (w.record event) where
  dispatchers := rfl
  cancelled := rfl
  handlers _ _ := rfl
  traces k other := by rw [tracesOf_record, own k other, Option.toList_none, List.append_nil]

end Only

theorem traceOf_other {event : Event} {h k : HandlerId} {trace : Trace} (other : k ≠ h)
    (shown : event.trace? = some (h, trace)) : event.traceOf k = none := by
  simp [Event.traceOf, shown, other.symm]

theorem traceOf_own {event : Event} {h : HandlerId} {trace : Trace}
    (shown : event.trace? = some (h, trace)) : event.traceOf h = some trace := by
  simp [Event.traceOf, shown]

theorem Only.begin {w admitted : World} {p : PassId} {pass : Pass} {call : Call}
    (admits : w.Admits p pass call admitted) (i : Nat) :
    Only call.handler w (admitted.beginCall p i pass call) := by
  obtain ⟨passes, rfl⟩ := admits.eq_passes
  have counted : Only call.handler w (World.countCall { w with passes } call.handler) :=
    (modifyHandler w call.handler _).trans (.of_eq rfl rfl rfl rfl)
  unfold beginCall
  split
  · rename_i handler _
    have set : ∀ status, Only call.handler (World.countCall { w with passes } call.handler)
        ((World.countCall { w with passes } call.handler).setStatus p i status) :=
      fun _ => .of_eq rfl rfl rfl rfl
    exact counted.trans ((set _).trans (.record _ _ fun k other => traceOf_other other rfl))
  · exact .of_eq rfl rfl rfl rfl

theorem Only.tells (w : World) (p : PassId) (i : Nat) (h : HandlerId) (notes : List Note) :
    Only h w (w.tells p i h notes) := by
  induction notes generalizing w with
  | nil => exact .of_eq rfl rfl rfl rfl
  | cons note notes ih =>
    have first : Only h w (w.tell p i h note) := .record _ _ fun k other => traceOf_other other rfl
    exact first.trans (ih _)

theorem tracesOf_tells (w : World) (p : PassId) (i : Nat) (h : HandlerId) (notes : List Note) :
    (w.tells p i h notes).tracesOf h = w.tracesOf h ++ notes.map .note := by
  induction notes generalizing w with
  | nil => exact (List.append_nil _).symm
  | cons note notes ih =>
    refine (ih (w.tell p i h note)).trans ?_
    rw [tell, tracesOf_record, traceOf_own rfl, List.map_cons, List.append_assoc]
    rfl

/-- To return a permit is nothing to any handler. -/
theorem returnPermit_frame (w : World) (p : PassId) :
    (w.returnPermit p).dispatchers = w.dispatchers ∧
      (w.returnPermit p).cancelled = w.cancelled ∧
      (w.returnPermit p).handlers = w.handlers ∧ (w.returnPermit p).history = w.history := by
  unfold returnPermit
  split
  · split
    · rename_i left next _
      obtain ⟨waking, same⟩ := wake_eq ((w.setPermits p left).setStatus p next .granted) ⟨p, next⟩
      rw [same]
      exact ⟨rfl, rfl, rfl, rfl⟩
    · exact ⟨rfl, rfl, rfl, rfl⟩
  · exact ⟨rfl, rfl, rfl, rfl⟩

/-- A handler to which there is another reference is not reclaimed. -/
theorem release_of_held {w : World} {h : HandlerId} {handler : Handler}
    (found : w.handlers.find? h = some handler) (held : 1 < handler.strong) :
    w.release h = w.letGo h := by
  have alive : (w.letGo h).alive h = true := by
    unfold World.alive letGo modifyHandler
    rw [Roster.find?_modify, if_pos rfl, found]
    simp only [Option.map_some, Handler.alive, decide_eq_true_eq]
    omega
  unfold release
  rw [alive]
  simp

/-- What a call that is over leaves of its world, if the handler lives on. -/
theorem retire_frame {w : World} {h : HandlerId} {handler : Handler}
    (found : w.handlers.find? h = some handler) (held : 1 < handler.strong) (p : PassId) (i : Nat)
    (error : Option CallError) : (w.retire p i h error).dispatchers = w.dispatchers ∧
      (w.retire p i h error).cancelled = w.cancelled ∧
      (w.retire p i h error).handlers = (w.letGo h).handlers ∧
      (w.retire p i h error).history = w.history := by
  have released : (w.setStatus p i (.finished error)).release h =
      (w.setStatus p i (.finished error)).letGo h := release_of_held found held
  unfold retire
  rw [released]
  exact returnPermit_frame ((w.setStatus p i (.finished error)).letGo h) p

end World

namespace Solo
variable {s : Solo} {w w' : World} {pass pass' : Pass} {part : Part} {status : Status} {i : Nat}
  {call : Call}

theorem Fits.congr (h : s.Fits w part status)
    (handlers : w'.handlers.find? part.handler = w.handlers.find? part.handler)
    (traces : w'.tracesOf part.handler = w.tracesOf part.handler) : s.Fits w' part status :=
  ⟨h.agrees, handlers.trans h.found, by rw [traces]; exact h.told⟩

theorem untold_of_isAhead (part : Part) (ahead : status.isAhead = true) :
    s.untold part status = s.telling part := by
  cases status <;> first | rfl | cases ahead

/-- Before a call begins, it makes no difference what it waits for. -/
theorem Fits.ahead (h : s.Fits w part status) (ahead : status.isAhead = true) {other : Status}
    (still : other.isAhead = true) : s.Fits w part other := by
  refine ⟨?_, ?_, ?_⟩
  · cases other <;> trivial
  · rw [part.during_of_isAhead still, ← part.during_of_isAhead ahead]
    exact h.found
  · have told := h.told
    rw [untold_of_isAhead part ahead] at told
    rw [untold_of_isAhead part still]
    exact told

/-- The handler of a call that has not begun has one more reference, and that is all. -/
theorem Fits.found_ahead (h : s.Fits w part status) (ahead : status.isAhead = true) :
    w.handlers.find? part.handler =
      some { part.origin with strong := part.origin.strong + 1 } :=
  h.found.trans (congrArg some (part.during_of_isAhead ahead))

namespace Underway

theorem length_eq (u : s.Underway w pass) : pass.calls.length = s.parts.length := by
  simpa [Pass.plan] using congrArg List.length u.plan

/-- Every call is the call of one of the handlers. -/
theorem part_of (u : s.Underway w pass) (at_position : pass.calls[i]? = some call) :
    ∃ part, s.parts[i]? = some part ∧ call.handler = part.handler ∧ call.name = part.name ∧
      s.Fits w part call.status := by
  have planned : (pass.plan)[i]? = (s.parts.map fun part => (part.handler, part.name))[i]? := by
    rw [u.plan]
  simp only [Pass.plan, List.getElem?_map, at_position, Option.map_some] at planned
  obtain ⟨part, at_part, same⟩ := Option.map_eq_some_iff.mp planned.symm
  exact ⟨part, at_part, (congrArg Prod.fst same).symm, (congrArg Prod.snd same).symm,
    u.fits i call part at_position at_part⟩

theorem phase (u : s.Underway w pass) : pass.phase = .running := congrArg Pass.phase u.outline

theorem lineage (u : s.Underway w pass) : pass.lineage = [] := congrArg Pass.lineage u.outline

theorem token (u : s.Underway w pass) : pass.token = s.token := congrArg Pass.token u.outline

theorem occasion (u : s.Underway w pass) : pass.occasion = s.occasion :=
  congrArg Pass.occasion u.outline

theorem dispatcher (u : s.Underway w pass) : pass.dispatcher = s.dispatcher :=
  congrArg Pass.dispatcher u.outline

theorem isCancelled (u : s.Underway w pass) : w.isCancelled pass.token = s.cancelled := by
  unfold World.isCancelled
  rw [u.cancelled, u.token]
  rfl

theorem settings (u : s.Underway w pass) : w.settings pass.dispatcher = s.settings := by
  unfold World.settings World.dispatcher
  rw [u.dispatchers, u.dispatcher]
  rfl

/-- No handler is called twice. -/
theorem position_eq {j : Nat} {part' : Part} (at_part : s.parts[i]? = some part)
    (at_part' : s.parts[j]? = some part') (same : part.handler = part'.handler) : i = j := by
  have at_i : (s.parts.map Part.handler)[i]? = some part.handler := by
    rw [List.getElem?_map, at_part, Option.map_some]
  have at_j : (s.parts.map Part.handler)[j]? = some part.handler := by
    rw [List.getElem?_map, at_part', Option.map_some, same]
  have inside : i < (s.parts.map Part.handler).length := (List.getElem?_eq_some_iff.mp at_i).1
  exact (List.getElem?_inj inside s.distinct).mp (at_i.trans at_j.symm)

/-- Something happens to one call and its handler; another call may be handed its permit. -/
theorem change (u : s.Underway w pass) (at_part : s.parts[i]? = some part)
    (found : w'.passes[s.pass]? = some pass') (outline : pass'.outline = pass.outline)
    (plan : pass'.plan = pass.plan) (sound : pass'.Sound) (metered : pass'.Metered s.settings.limit)
    (only : World.Only part.handler w w')
    (own : ∀ after, pass'.calls[i]? = some after → s.Fits w' part after.status)
    (others : ∀ j after, i ≠ j → pass'.calls[j]? = some after → ∃ before,
      pass.calls[j]? = some before ∧ (after.status = before.status ∨
        before.status = .queued ∧ after.status = .granted)) : s.Underway w' pass' where
  found := found
  outline := outline.trans u.outline
  plan := plan.trans u.plan
  sound := sound
  metered := metered
  dispatchers := only.dispatchers.trans u.dispatchers
  cancelled := only.cancelled.trans u.cancelled
  fits j after part' at_j at_part' := by
    by_cases same : i = j
    · subst same
      rw [at_part, Option.some.injEq] at at_part'
      exact at_part' ▸ own after at_j
    · obtain ⟨before, at_before, became⟩ := others j after same at_j
      have fits := u.fits j before part' at_before at_part'
      have apart : part'.handler ≠ part.handler :=
        fun equal => same (position_eq at_part at_part' equal.symm)
      have kept := fits.congr (only.handlers _ apart) (only.traces _ apart)
      rcases became with equal | ⟨queued, granted⟩
      · exact equal ▸ kept
      · rw [granted]
        rw [queued] at kept
        exact kept.ahead rfl rfl
  others h outside := by
    have other : h ≠ part.handler := by
      rintro rfl
      exact outside (List.mem_map_of_mem (List.mem_of_getElem? at_part))
    obtain ⟨handlers, traces⟩ := u.others h outside
    exact ⟨(only.handlers h other).trans handlers, (only.traces h other).trans traces⟩

/-- One call changes its state, perhaps with the number of permits. -/
theorem setCall (u : s.Underway w pass) (at_part : s.parts[i]? = some part)
    {permits : Option Permits} {status : Status}
    (found : w'.passes[s.pass]? = some ({ pass with permits }.setCall i status))
    (sound : ({ pass with permits }.setCall i status).Sound)
    (metered : ({ pass with permits }.setCall i status).Metered s.settings.limit)
    (only : World.Only part.handler w w') (fits : s.Fits w' part status) :
    s.Underway w' ({ pass with permits }.setCall i status) := by
  refine u.change at_part found rfl (Pass.plan_setCall { pass with permits } i status) sound metered
    only ?_ ?_
  · intro after at_i
    rw [Pass.getElem?_setCall, if_pos rfl] at at_i
    obtain ⟨old, -, rfl⟩ := Option.map_eq_some_iff.mp at_i
    exact fits
  · intro j after other at_j
    rw [Pass.getElem?_setCall, if_neg other] at at_j
    exact ⟨after, at_j, .inl rfl⟩

/-- Who is to be polled is nothing to any of this. -/
theorem setWaking (u : s.Underway w pass) (waking : Waking) :
    s.Underway (w.setWaking waking) pass where
  found := u.found
  outline := u.outline
  plan := u.plan
  sound := u.sound
  metered := u.metered
  dispatchers := u.dispatchers
  cancelled := u.cancelled
  fits i call part at_position at_part := (u.fits i call part at_position at_part).congr rfl rfl
  others := u.others

theorem wake (u : s.Underway w pass) (call : CallId) : s.Underway (w.wake call) pass := by
  obtain ⟨waking, same⟩ := World.wake_eq w call
  rw [same]
  exact u.setWaking waking

/-- A call that begins has all of its script before it. -/
theorem fits_begin {admitted : World} (u : s.Underway w pass) (member : part ∈ s.parts)
    (fits : s.Fits w part call.status) (own : call.handler = part.handler)
    (admits : w.Admits s.pass pass call admitted) (i : Nat) :
    s.Fits (admitted.beginCall s.pass i pass call) part
      (.running part.origin.begun .ready part.script) := by
  have there := fits.found_ahead admits.isAhead
  have told := fits.told
  rw [untold_of_isAhead part admits.isAhead] at told
  obtain ⟨passes, rfl⟩ := admits.eq_passes
  have flag : World.isCancelled { w with passes } pass.token = s.cancelled := u.isCancelled
  simp only [World.beginCall, own, there, flag, u.occasion]
  refine ⟨⟨rfl, .inl rfl, s.independent part member, rfl⟩, ?found, ?told⟩
  case found =>
    refine (w.handlers.find?_modify part.handler part.handler _).trans ?_
    rw [if_pos rfl, there]
    rfl
  case told =>
    rw [World.tracesOf_record, World.traceOf_own rfl]
    exact (List.append_assoc ..).trans told

section
variable (u : s.Underway w pass) (at_position : pass.calls[i]? = some call)
include u at_position

/-- A call joins those that wait for a permit. -/
theorem queue {permits : Permits} (idle : call.status = .idle)
    (limited : pass.permits = some permits) (short : permits.take? = none) :
    s.Underway ((w.setPermits s.pass (permits.enqueue i)).setStatus s.pass i .queued)
      ({ pass with permits := some (permits.enqueue i) }.setCall i .queued) := by
  obtain ⟨part, at_part, -, -, fits⟩ := u.part_of at_position
  have first := World.passes_setPermits u.found (permits.enqueue i)
  have second := World.passes_setStatus (first ▸ World.getElem?_set_of_some _ u.found) i .queued
  refine u.setCall at_part ?_ (u.sound.queueCall u.phase at_position idle limited)
    (u.metered.queueCall at_position idle limited short) (.of_eq rfl rfl rfl rfl) ?_
  · rw [second, first, List.set_set]
    exact World.getElem?_set_of_some _ u.found
  · exact (fits.ahead (by rw [idle]; rfl) rfl).congr rfl rfl

/-- A call begins. -/
theorem begin {admitted : World} (admits : w.Admits s.pass pass call admitted) :
    ∃ permits part, s.parts[i]? = some part ∧
      s.Underway (admitted.beginCall s.pass i pass call)
        ({ pass with permits }.setCall i (.running part.origin.begun .ready part.script)) := by
  obtain ⟨part, at_part, handler_eq, -, fits⟩ := u.part_of at_position
  obtain ⟨permits, pass_admits, -, passes⟩ := admits.pass u.found
  have here : admitted.passes[s.pass]? = some { pass with permits } :=
    passes ▸ World.getElem?_set_of_some _ u.found
  have becomes : pass.Becomes s.pass False (fun _ _ => False) _ _ :=
    .begin u.phase at_position pass_admits part.origin.begun part.script s.cancelled
  refine ⟨permits, part, at_part, u.setCall at_part ?_ (becomes.sound u.sound)
    (u.metered.begin at_position pass_admits _ _) (handler_eq ▸ .begin admits i)
    (u.fits_begin (List.mem_of_getElem? at_part) fits handler_eq admits i)⟩
  rw [World.beginCall, admits.handlers, handler_eq, fits.found_ahead admits.isAhead]
  exact (congrArg (·[s.pass]?) (World.passes_setStatus
    (w := admitted.countCall part.handler) here i _)).trans (World.getElem?_set_of_some _ here)

/-- A running call goes on, after its handler told something. -/
theorem proceed {number : Nat} {before : Await} {todo : Script}
    (begun : call.status = .running number before todo) {w' : World} (passes : w'.passes = w.passes)
    {after : Await} {rest : Script} (goes_on : after = .ready ∨ ∃ n, after = .turns n)
    (independent : rest.Independent)
    (only : World.Only call.handler w w')
    (handlers : w'.handlers = w.handlers)
    (told : w'.tracesOf call.handler ++ s.notes rest = w.tracesOf call.handler ++ s.notes todo)
    (verdict : rest.verdict s.occasion s.cancelled = todo.verdict s.occasion s.cancelled) :
    s.Underway (w'.setStatus s.pass i (.running number after rest))
      (pass.setCall i (.running number after rest)) := by
  obtain ⟨part, at_part, handler_eq, -, fits⟩ := u.part_of at_position
  rw [begun] at fits
  obtain ⟨number_eq, -, -, same⟩ := fits.agrees
  have found : w'.passes[s.pass]? = some pass := passes ▸ u.found
  have running : call.status.isRunning = true := by rw [begun]; rfl
  rw [handler_eq] at only told
  refine u.setCall at_part ?_ ?_ (u.metered.proceed at_position running number after rest)
    (only.trans (.of_eq rfl rfl rfl rfl)) ⟨⟨number_eq, goes_on, independent, verdict.trans same⟩, ?_, ?_⟩
  · exact (congrArg (·[s.pass]?) (World.passes_setStatus found i _)).trans
      (World.getElem?_set_of_some _ found)
  · have no_pass : ∀ q propagate, after = .pass q propagate → False := by
      rintro q propagate rfl
      rcases goes_on with waits | ⟨n, waits⟩ <;> cases waits
    have becomes : pass.Becomes s.pass False (fun _ _ => False) _ _ :=
      .proceed u.phase at_position begun after rest no_pass
    exact becomes.sound u.sound
  · exact (congrArg (Roster.find? · part.handler) handlers).trans fits.found
  · have before := fits.told
    simp only [untold, ← List.append_assoc] at before ⊢
    exact (congrArg (· ++ [s.last part]) told).trans before

/-- A call is over, after the end of it was told. -/
theorem retire {number : Nat} {await : Await} {rest : Script}
    (begun : call.status = .running number await rest) (silent : s.notes rest = []) {w' : World}
    (passes : w'.passes = w.passes) (only : World.Only call.handler w w')
    (handlers : w'.handlers = w.handlers)
    (told : ∀ part, s.parts[i]? = some part →
      w'.tracesOf call.handler = w.tracesOf call.handler ++ [s.last part])
    {error : Option CallError}
    (ends : ∀ part, s.parts[i]? = some part → error = (s.verdict part).error) :
    s.Underway (w'.retire s.pass i call.handler error) (pass.retire i error) := by
  obtain ⟨part, at_part, handler_eq, -, fits⟩ := u.part_of at_position
  have running : call.status.isRunning = true := by rw [begun]; rfl
  rw [begun] at fits
  have told := told part at_part
  rw [handler_eq] at only told ⊢
  have found : w'.passes[s.pass]? = some pass := passes ▸ u.found
  -- the pass holds one reference to the handler, which is not the only one
  have there : w'.handlers.find? part.handler = some (part.during (.running number await rest)) :=
    handlers ▸ fits.found
  have owned : 0 < part.origin.strong := by
    simpa [Handler.alive] using s.alive part (List.mem_of_getElem? at_part)
  obtain ⟨dispatchers, cancelled, let_go, history⟩ :=
    World.retire_frame there (Nat.succ_lt_succ owned) s.pass i error
  have becomes : pass.Becomes s.pass False (fun _ _ => False) _ (pass.retire i error) :=
    .returnCall u.phase at_position running error
  refine u.change at_part ?_ (Pass.outline_retire ..) (Pass.plan_retire ..) (becomes.sound u.sound)
    (u.metered.retire u.sound u.phase at_position running error) ?_ ?_ ?_
  · exact (congrArg (·[s.pass]?) (World.passes_retire found i part.handler error)).trans
      (World.getElem?_set_of_some _ found)
  · have released : World.Only part.handler w' (w'.letGo part.handler) := .modifyHandler _ _ _
    exact (only.trans released).trans (.of_eq dispatchers cancelled let_go history)
  · intro after at_i
    have finished : after.status = .finished error := by
      obtain ⟨-, last, at_last, finished⟩ :=
        Pass.retire_settles u.sound u.phase at_position running error
      rw [at_last, Option.some.injEq] at at_i
      exact at_i ▸ finished
    rw [finished]
    refine ⟨ends part at_part, ?_, ?_⟩
    · rw [let_go]
      refine (w'.handlers.find?_modify part.handler part.handler _).trans ?_
      rw [if_pos rfl, there]
      rfl
    · have before := fits.told
      simp only [untold, silent, List.nil_append] at before
      rw [World.tracesOf, history]
      exact (List.append_nil _).trans (told.trans before)
  · exact fun j after other at_j => Pass.retire_other other error (u.sound.queue u.phase) at_j

/-- A call returns as its script says. -/
theorem returnCall {number : Nat} {await : Await} {rest : Script}
    (begun : call.status = .running number await rest) (silent : s.notes rest = [])
    {error : Option CallError} (ends : ∀ part, s.parts[i]? = some part →
      s.verdict part = .returned error) :
    s.Underway (w.returnCall s.pass i call.handler error) (pass.retire i error) := by
  have own : ∀ k, k ≠ call.handler →
      (Event.returned s.pass i call.handler error).traceOf k = none :=
    fun k other => World.traceOf_other other rfl
  have tallied : World.Only call.handler w (w.setTally w.tally.returnedOne) :=
    .of_eq rfl rfl rfl rfl
  unfold World.returnCall
  refine u.retire at_position begun silent ?_ (tallied.trans (.record _ _ own)) ?_ ?_ ?_
  · rfl
  · rfl
  · intro part at_part
    rw [World.tracesOf_record, World.traceOf_own rfl, last, ends part at_part]
    rfl
  · intro part at_part
    rw [ends part at_part]
    rfl

/-- The panic of a call is caught. -/
theorem catchPanic {number : Nat} {await : Await} {rest : Script}
    (begun : call.status = .running number await rest) (silent : s.notes rest = [])
    {payload : Payload} (ends : ∀ part, s.parts[i]? = some part →
      s.verdict part = .panicked payload) :
    s.Underway (w.catchPanic s.pass i pass.dispatcher call payload)
      (pass.retire i (some (.panicked payload.info))) := by
  have own : ∀ k, k ≠ call.handler → (Event.cut s.pass i call.handler).traceOf k = none :=
    fun k other => World.traceOf_other other rfl
  have tallied : World.Only call.handler w (w.setTally w.tally.cutOne) := .of_eq rfl rfl rfl rfl
  have cut := tallied.trans (.record _ _ own)
  unfold World.catchPanic
  refine u.retire at_position begun silent ?_ (cut.trans (.record _ _ fun _ _ => rfl)) ?_ ?_ ?_
  · rfl
  · rfl
  · intro part at_part
    rw [World.tracesOf_record, World.tracesOf_record, World.traceOf_own rfl, last,
      ends part at_part]
    exact List.append_nil _
  · intro part at_part
    rw [ends part at_part]
    rfl

end
end Underway
end Solo
end Fanout
