import Fanout.Proofs.Dutiful

/-! A limit is a cap, and all of it is used. Never do more calls of a pass run at once than its
dispatcher allows, and every call that is over gives its permit back, however it ended. When the
poll of an outermost pass comes to rest, nothing in it is left that could go on: in this pass, and
in all those that are polled for its sake, as many calls have begun as there are permits, or all of
them. -/
namespace Fanout

/-- The pass that is polled from outside for the sake of a pass that these calls wait for. -/
def outermostOf : List CallId → PassId → PassId
  | [], q => q
  | call :: callers, _ => outermostOf callers call.pass

namespace Pass
variable {pass : Pass} {n i : Nat} {call : Call} {error : Option CallError}

/-- At most `n` calls run, or any number if `n` is 0, and every permit is accounted for by what the
calls of the pass itself are at. -/
structure Capped (pass : Pass) (n : Nat) : Prop where
  cap : n ≠ 0 → pass.count Status.isRunning ≤ min n Permits.most
  conserved : pass.phase = .running → n ≠ 0 → ∃ permits, pass.permits = some permits ∧
    permits.free + pass.count Status.isRunning + pass.count Status.isGranted = min n Permits.most
  unlimited : pass.phase = .running → n = 0 → pass.permits = none

/-- The call is over, and its permit is free or was handed to a call that waited for one. -/
structure GivesBack (before after : Pass) (i : Nat) : Prop where
  finished : ∃ call error, after.calls[i]? = some call ∧ call.status = .finished error
  running : after.count Status.isRunning + 1 = before.count Status.isRunning
  permits : ∀ permits, before.permits = some permits → ∃ left, after.permits = some left ∧
    left.free + after.count Status.isGranted = permits.free + before.count Status.isGranted + 1

/-- As many calls have begun, of those that are not over, as the limit `n` allows. -/
structure Saturated (pass : Pass) (n : Nat) : Prop where
  running : pass.count Status.isRunning =
    if n = 0 then pass.count Status.isUnfinished
    else min (min n Permits.most) (pass.count Status.isUnfinished)
  not_stuck : pass.count Status.isUnfinished ≠ 0 → pass.count Status.isRunning ≠ 0

theorem count_eq_zero {f : Status → Bool} (none : ∀ call ∈ pass.calls, f call.status = false) :
    pass.count f = 0 :=
  List.countP_eq_zero.mpr fun call hc => by simp [none call hc]

theorem count_congr {f g : Status → Bool}
    (same : ∀ call ∈ pass.calls, f call.status = g call.status) : pass.count f = pass.count g :=
  List.countP_congr fun call hc => by rw [same call hc]

theorem running_le_unfinished (pass : Pass) :
    pass.count Status.isRunning ≤ pass.count Status.isUnfinished :=
  List.countP_mono_left fun _ _ => Status.isUnfinished_of_isRunning

theorem saturated_of_running (equation : pass.count Status.isRunning =
    if n = 0 then pass.count Status.isUnfinished
    else min (min n Permits.most) (pass.count Status.isUnfinished)) : pass.Saturated n := by
  refine ⟨equation, fun some_left none_runs => ?_⟩
  have many : 0 < Permits.most := by decide
  rw [none_runs] at equation
  split at equation <;> omega

/-- Nothing is to be done in a pass that is not under way. -/
theorem Sound.saturated (sound : pass.Sound) (still : pass.phase ≠ .running) (n : Nat) :
    pass.Saturated n := by
  have is_over : pass.count Status.isUnfinished = 0 :=
    count_eq_zero fun call hc => Bool.eq_false_of_not_eq_true fun unfinished =>
      still (sound.running_of_unfinished hc unfinished)
  have none_runs := Nat.le_zero.mp (is_over ▸ pass.running_le_unfinished)
  exact saturated_of_running (by simp [is_over, none_runs])

theorem Sound.capped_of_not_running (sound : pass.Sound) (still : pass.phase ≠ .running) (n : Nat) :
    pass.Capped n := by
  have none_runs : pass.count Status.isRunning = 0 :=
    count_eq_zero fun call hc => Bool.eq_false_of_not_eq_true fun running =>
      still (sound.running_of_unfinished hc (Status.isUnfinished_of_isRunning running))
  exact ⟨fun _ => none_runs ▸ Nat.zero_le _, fun running => absurd running still,
    fun running => absurd running still⟩

section
variable {settings : Settings}

theorem Metered.capped (h : pass.Metered settings.limit) : pass.Capped settings.maxConcurrent := by
  generalize limit : settings.limit = l at h
  unfold Settings.limit at limit
  cases h with
  | unlimited no_permits no_waiters =>
    split at limit
    · rename_i zero
      exact ⟨(absurd zero ·), fun _ => (absurd zero ·), fun _ _ => no_permits⟩
    · cases limit
  | @limited n permits some_permits total in_queue short =>
    split at limit
    · cases limit
    · rename_i some_limit
      rw [Option.some.inj limit]
      rw [Option.some.inj limit] at some_limit
      exact ⟨fun _ => by omega, fun _ _ => ⟨permits, some_permits, total⟩,
        fun _ zero => absurd zero some_limit⟩

/-- If no call is left that could go on, those that did not begin are held up by the limit. -/
theorem Metered.saturated (h : pass.Metered settings.limit)
    (whole : ∀ call ∈ pass.calls, call.status ≠ .abandoned)
    (still : ∀ call ∈ pass.calls, call.status.isEager = false) :
    pass.Saturated settings.maxConcurrent := by
  refine saturated_of_running ?_
  have none_granted : pass.count Status.isGranted = 0 := by
    refine count_eq_zero fun call hc => ?_
    have not_eager := still call hc
    cases status : call.status <;> simp_all [Status.isEager, Status.isGranted]
  have begun : (∀ call ∈ pass.calls, call.status ≠ .queued) →
      pass.count Status.isRunning = pass.count Status.isUnfinished := by
    intro none_queued
    refine count_congr fun call hc => ?_
    have not_eager := still call hc
    have not_queued := none_queued call hc
    cases status : call.status <;> simp_all [Status.isEager, Status.isRunning, Status.isUnfinished]
  generalize limit : settings.limit = l at h
  unfold Settings.limit at limit
  cases h with
  | unlimited no_permits no_waiters =>
    split at limit
    · rename_i zero
      rw [if_pos zero]
      exact begun fun call hc => (no_waiters call hc).1
    · cases limit
  | @limited n permits some_permits total in_queue short =>
    split at limit
    · cases limit
    · rename_i some_limit
      rw [if_neg some_limit, Option.some.inj limit]
      by_cases queue : permits.queue = []
      · -- nobody waits for a permit
        have all := begun fun call hc queued => by
          obtain ⟨j, at_position⟩ := List.getElem?_of_mem hc
          have waits := in_queue j call at_position queued
          rw [queue] at waits
          cases waits
        omega
      · -- somebody does, so that no permit is free, and all run that may
        have none_free := short queue
        have le := pass.running_le_unfinished
        omega

end

section
variable (sound : pass.Sound) (phase : pass.phase = .running)
  (at_position : pass.calls[i]? = some call) (begun : call.status.isRunning = true)
include sound phase at_position begun

theorem retire_settles (error : Option CallError) :
    (pass.retire i error).count Status.isRunning + 1 = pass.count Status.isRunning ∧
      ∃ last, (pass.retire i error).calls[i]? = some last ∧ last.status = .finished error := by
  have counted := count_setCall at_position (.finished error) Status.isRunning
  rw [begun] at counted
  simp only [Status.isRunning, Bool.toNat_true, Bool.toNat_false] at counted
  have here : (pass.setCall i (.finished error)).calls[i]? =
      some { call with status := .finished error } := by
    rw [getElem?_setCall, if_pos rfl, at_position]
    rfl
  have still : (pass.setCall i (.finished error)).Sound :=
    sound.finish phase at_position begun error
  unfold retire
  rcases hp : (pass.setCall i (.finished error)).permits with _ | ⟨free, _ | ⟨next, others⟩⟩
  · rw [returnPermit_of_none hp]
    exact ⟨counted, _, here, rfl⟩
  · rw [returnPermit_of_nil hp]
    exact ⟨counted, _, here, rfl⟩
  · obtain ⟨waiter, at_next, queued⟩ :=
      (still.queue phase _ hp).queued next List.mem_cons_self
    have handed := count_setCall at_next .granted Status.isRunning
    simp only [queued, Status.isRunning] at handed
    have other : next ≠ i := by
      rintro rfl
      rw [here, Option.some.injEq] at at_next
      simp [← at_next] at queued
    rw [returnPermit_of_cons hp]
    refine ⟨?_, _, (getElem?_setCall ..).trans ((if_neg other).trans here), rfl⟩
    show ((pass.setCall i _).setCall next _).count _ + 1 = _
    omega

theorem Metered.gives_back {limit : Option Nat} (h : pass.Metered limit)
    (error : Option CallError) : pass.GivesBack (pass.retire i error) i := by
  obtain ⟨running, last, at_last, finished⟩ := retire_settles sound phase at_position begun error
  refine ⟨⟨last, error, at_last, finished⟩, running, fun permits limited => ?_⟩
  have after := h.retire sound phase at_position begun error
  cases h with
  | unlimited no_permits => rw [no_permits] at limited; cases limited
  | limited some_permits total =>
    rw [some_permits, Option.some.injEq] at limited
    subst limited
    cases after with
    | limited some_left total' => exact ⟨_, some_left, by omega⟩

end
end Pass

namespace Scene
variable {passes : List Pass} {waking : Waking} {b : PassId}

/-- When the poll of an outermost pass is at rest, nothing will be polled for its sake. -/
theorem not_comes_of_rest (rests : waking.again = false) {callers : List CallId} {q : PassId}
    (inside : outermostOf callers q = b) :
    ¬ Comes ⟨passes, waking, { outermost := some b }⟩ callers q := by
  induction callers generalizing q with
  | nil =>
    have here : q = b := inside
    rintro (enters | again | outside)
    · cases enters
    · rw [rests] at again
      cases again
    · exact outside (congrArg some here.symm)
  | cons call callers ih =>
    rintro (enters | polls | ⟨-, turning⟩ | ⟨-, comes⟩)
    · cases enters
    · cases polls
    · cases turning
    · exact ih inside comes

theorem not_hears_of_rest (rests : waking.again = false) {call : CallId} {callers : List CallId}
    (inside : outermostOf callers call.pass = b) :
    ¬ Hears ⟨passes, waking, { outermost := some b }⟩ call callers := by
  rintro (polls | ⟨-, turning⟩ | ⟨-, comes⟩)
  · cases polls
  · cases turning
  · exact not_comes_of_rest rests inside comes

end Scene

theorem Attended.outermost_open {passes : List Pass} (attended : Attended passes)
    {callers : List CallId} {q : PassId} (runs : Runs passes q callers) :
    IsOpen passes (outermostOf callers q) := by
  induction callers generalizing q with
  | nil =>
    obtain ⟨pass, found, running, -⟩ := runs
    exact ⟨pass, found, by simp [running, Phase.isOpen]⟩
  | cons call callers ih => exact ih (attended.runs runs)

namespace World

/-- All that is polled for the sake of the outermost pass has come as far as its limits allow. -/
def Still (w : World) (b : PassId) : Prop :=
  ∀ (q : PassId) (pass : Pass), w.passes[q]? = some pass → outermostOf pass.lineage q = b →
    pass.Saturated (w.settings pass.dispatcher).maxConcurrent

theorem Reached.still {w : World} (reached : w.Reached) {b : PassId}
    (done : ∀ call callers, Eager w.passes call callers → outermostOf callers call.pass ≠ b) :
    w.Still b := by
  intro q pass found inside
  have sound := reached.recorded.sound q pass found
  by_cases running : pass.phase = .running
  · refine (reached.metered q pass found running).saturated (sound.whole running) fun call hc => ?_
    obtain ⟨i, at_position⟩ := List.getElem?_of_mem hc
    refine Bool.eq_false_of_not_eq_true fun eager => ?_
    exact done ⟨q, i⟩ pass.lineage ⟨pass, call, found, running, rfl, at_position, eager⟩ inside
  · exact sound.saturated running _

end World

namespace Machine
open World

theorem Dutiful.still_of_rests {m : Machine} (h : m.Dutiful) {b : PassId} (rests : m.Rests b) :
    m.world.Still b := by
  obtain ⟨w, control⟩ := m
  obtain ⟨rfl, rests⟩ := rests
  refine h.reached.still fun call callers eager inside => ?_
  exact Scene.not_hears_of_rest rests inside (h.heeds.attentive.heard call callers eager)

/-- In a pass that is closed, nothing is under way any more. -/
theorem Dutiful.still_of_closed {m : Machine} (h : m.Dutiful) {b : PassId}
    (closed : ¬ IsOpen m.world.passes b) : m.world.Still b := by
  refine h.reached.still fun call callers eager inside => closed ?_
  exact inside ▸ h.heeds.paired.attended.outermost_open eager.runs

theorem settle_of_panicked (fuel : Nat) {m : Machine} {payload : Payload}
    (ends : m.control = .ending (.panicked payload) []) :
    (settle fuel m).control ≠ .settled none := by
  obtain ⟨w, control⟩ := m
  cases ends
  cases fuel with
  | zero => nofun
  | succ fuel =>
    have settled : settle (fuel + 1) ⟨w, .ending (.panicked payload) []⟩ =
        ⟨w, .settled (some (.panicked payload))⟩ := settle_of_isSettled fuel rfl
    rw [settled]
    nofun

/-- A poll that leaves its pass pending has done everything that could be done. -/
theorem Dutiful.still_of_settle {b : PassId} (fuel : Nat) {m : Machine} (h : m.Dutiful)
    (polled : m.control.focus.outermost = some b)
    (pending : (settle fuel m).control = .settled none) : (settle fuel m).world.Still b := by
  induction fuel generalizing m with
  | zero =>
    have at_once : m.control = .settled none := pending
    rw [at_once] at polled
    cases polled
  | succ fuel ih =>
    have under_way : ¬ m.isSettled = true := by
      intro settled
      obtain ⟨w, ending, rfl⟩ := eq_of_isSettled settled
      cases polled
    rw [settle, if_neg under_way] at pending ⊢
    have next : m.tick.Dutiful := run_dutiful h [.tick]
    rcases h.goes polled with
      (same | ⟨payload, ends⟩ | ⟨ending, ends⟩) | ⟨rests | ⟨-, closed⟩, ends⟩
    · exact ih next same pending
    · exact absurd pending (settle_of_panicked fuel ends)
    · rw [settle_of_isSettled fuel (by rw [isSettled, ends]), ends] at pending
      cases pending
    · rw [ends, settle_of_isSettled fuel rfl]
      exact h.still_of_rests rests
    · rw [ends, settle_of_isSettled fuel rfl]
      exact h.still_of_closed closed

theorem gives_back_of_ending {m : Machine} (h : m.Steady) {verdict : Verdict} {frame : Frame}
    {outer : List Frame} (ending : m.control = .ending verdict (frame :: outer)) {before : Pass}
    (found : m.world.passes[frame.pass]? = some before)
    (caught : ∀ payload, verdict = .panicked payload →
      (m.world.settings before.dispatcher).isolatePanics = true) :
    ∃ after, (m.move .tick).world.passes[frame.pass]? = some after ∧
      before.GivesBack after frame.call := by
  obtain ⟨w, control⟩ := m
  cases ending
  obtain ⟨turning, same, call, found', at_position, busy⟩ := h.positioned
  rw [found, Option.some.injEq] at found'
  subst found'
  have here : w.call? frame.pass frame.call = some call := by
    rw [call?_of_found found, at_position]
  have phase := turning.phase found
  have gives := (h.reached.metered frame.pass before found phase).gives_back
    (h.reached.sound frame.pass before found) phase at_position busy
  cases verdict with
  | returned error =>
    refine ⟨_, ?_, gives error⟩
    simp only [move, tick, conclude, found, here, beginTurn]
    exact (passes_returnCall found ..) ▸ getElem?_set_of_some _ found
  | panicked payload =>
    refine ⟨_, ?_, gives (some (.panicked payload.info))⟩
    simp only [move, tick, conclude, found, here, caught payload rfl, if_true, beginTurn]
    exact (passes_catchPanic found ..) ▸ getElem?_set_of_some _ found

end Machine

theorem Pass.Capped.free_eq {before after : Pass} {n : Nat} (h : before.Capped n)
    (h' : after.Capped n) (was_running : before.phase = .running) (running : after.phase = .running)
    (same : after.calls = before.calls) :
    after.permits.map Permits.free = before.permits.map Permits.free := by
  by_cases zero : n = 0
  · rw [h.unlimited was_running zero, h'.unlimited running zero]
  · obtain ⟨permits, limited, total⟩ := h.conserved was_running zero
    obtain ⟨permits', limited', total'⟩ := h'.conserved running zero
    have counted : ∀ f, after.count f = before.count f := fun f => by rw [count, same, count]
    rw [counted, counted] at total'
    rw [limited, limited', Option.map_some, Option.map_some, Option.some.injEq]
    omega

theorem World.Reached.capped {w : World} (reached : w.Reached) {p : PassId} {pass : Pass}
    (found : w.passes[p]? = some pass) :
    pass.Capped (w.settings pass.dispatcher).maxConcurrent := by
  by_cases running : pass.phase = .running
  · exact (reached.metered p pass found running).capped
  · exact (reached.sound p pass found).capped_of_not_running running _

/-- The limit of a dispatcher caps each of its passes, and each uses all of it. At every moment no
more calls of a pass run than may, and all its permits are accounted for; a call that ends gives its
own back, and no other pass takes any. When the poll of an outermost pass has come to rest, there
and in all passes that are polled for its sake only those calls did not begin that the limit holds
up. -/
theorem limit_caps_and_conserves (arity : Arity) (blueprints : List Blueprint)
    (moves : List Move) :
    let m := (Machine.idle arity blueprints).run moves
    let w := m.world
    (∀ (p : PassId) (pass : Pass), w.passes[p]? = some pass →
      pass.Capped (w.settings pass.dispatcher).maxConcurrent) ∧
    (∀ verdict frame outer (before : Pass), m.control = .ending verdict (frame :: outer) →
      w.passes[frame.pass]? = some before →
      (∀ payload, verdict = .panicked payload →
        (w.settings before.dispatcher).isolatePanics = true) →
      ∃ after, (m.move .tick).world.passes[frame.pass]? = some after ∧
        before.GivesBack after frame.call) ∧
    (∀ more (p : PassId) (before after : Pass), w.passes[p]? = some before →
      (m.run more).world.passes[p]? = some after →
      before.phase = .running → after.phase = .running → after.calls = before.calls →
      after.permits.map Permits.free = before.permits.map Permits.free) ∧
    (∀ p, m.Rests p → w.Still p) ∧
    ∀ p fuel after, m.isSettled = true → w.isOutermost p = true →
      w.poll? fuel p = some (after, none) → after.Still p := by
  intro m w
  have dutiful : m.Dutiful := Machine.run_dutiful (Machine.dutiful_idle arity blueprints) moves
  refine ⟨fun p pass found => dutiful.reached.capped found,
    fun verdict frame outer before ending found caught =>
      Machine.gives_back_of_ending dutiful.toSteady ending found caught,
    fun more p before after found found' was_running running same => ?_,
    fun p rests => dutiful.still_of_rests rests,
    fun p fuel after settled outermost pending => ?_⟩
  · obtain ⟨leads, steady⟩ := Machine.run_steady dutiful.toSteady more
    obtain ⟨_, again, -, belongs⟩ := leads.keeps found
    rw [found', Option.some.injEq] at again
    subst again
    have later := steady.reached.capped found'
    rw [belongs, leads.settings (dutiful.reached.belongs found)] at later
    exact (dutiful.reached.capped found).free_eq later was_running running same
  · have begun : m.move (.poll p) = .toPoll w p := if_pos (by simp [settled, outermost, w])
    have polled : (Machine.toPoll w p).Dutiful :=
      begun ▸ Machine.run_dutiful dutiful [.poll p]
    unfold World.poll? at pending
    dsimp only at pending
    split at pending
    · rename_i ending ends
      cases pending
      exact polled.still_of_settle fuel rfl ends
    · cases pending

def narrowBlueprints : List Blueprint := [{ scripts := [[.waitFor "g"]] }]

def narrowMoves : List Move :=
  [.act (.createDispatcher (some "d") (.built [.maxConcurrent 1])),
    .act (.createHandler (some "a") 0 none), .act (.createHandler (some "b") 0 none),
    .act (.register (some "d") (some "a")), .act (.register (some "d") (some "b")),
    .start { dispatcher := some "d" }]

def narrowRest : List Move := narrowMoves ++ .poll 0 :: List.replicate 8 .tick

def narrowOthers : List Move :=
  [.tick, .start { dispatcher := some "d" }, .poll 1] ++ List.replicate 8 .tick

def narrowReturn : List Move :=
  narrowRest ++ .act (.openGate (some "g")) :: List.replicate 5 .tick

/-- One call has begun and the other is held up by the limit, however the other pass of the
dispatcher gets on, until the call that has begun returns and its permit goes to the other. -/
theorem limit_caps_and_conserves_narrow :
    let begun := (Machine.idle .simple narrowBlueprints).run narrowMoves
    let resting := (Machine.idle .simple narrowBlueprints).run narrowRest
    let returning := (Machine.idle .simple narrowBlueprints).run narrowReturn
    (∃ after, begun.world.poll? 9 0 = some (after, none) ∧ after.Still 0) ∧
    (∃ pass, resting.Rests 0 ∧ resting.world.passes[0]? = some pass ∧ pass.Capped 1 ∧
      pass.Saturated 1 ∧ pass.count Status.isRunning = 1 ∧ pass.count Status.isUnfinished = 2 ∧
      ∃ later, (resting.run narrowOthers).world.passes[0]? = some later ∧
        later.permits.map Permits.free = pass.permits.map Permits.free) ∧
    ∃ before after, returning.world.passes[0]? = some before ∧
      (returning.move .tick).world.passes[0]? = some after ∧ before.GivesBack after 0 := by
  intro begun resting returning
  refine ⟨?_, ?_, ?_⟩
  · obtain ⟨-, -, -, -, polled⟩ := limit_caps_and_conserves .simple narrowBlueprints narrowMoves
    have pending : (begun.world.poll? 9 0).map Prod.snd = some none := by decide +kernel
    obtain ⟨⟨after, ending⟩, poll, rfl⟩ := Option.map_eq_some_iff.mp pending
    exact ⟨after, poll, polled 0 9 after (by decide +kernel) (by decide +kernel) poll⟩
  · obtain ⟨capped, -, apart, rests, -⟩ :=
      limit_caps_and_conserves .simple narrowBlueprints narrowRest
    have at_rest : resting.Rests 0 := ⟨by decide +kernel, by decide +kernel⟩
    have state : (resting.world.passes[0]?).map (fun pass =>
        ((resting.world.settings pass.dispatcher).maxConcurrent, pass.lineage, pass.phase,
          pass.count Status.isRunning, pass.count Status.isUnfinished)) =
        some (1, [], .running, 1, 2) := by decide +kernel
    obtain ⟨pass, found, fields⟩ := Option.map_eq_some_iff.mp state
    simp only [Prod.mk.injEq] at fields
    obtain ⟨limit, outermost, running, run, unfinished⟩ := fields
    have same : ((resting.run narrowOthers).world.passes[0]?).map (fun pass =>
        (pass.phase, pass.calls)) = (resting.world.passes[0]?).map (fun pass =>
          (pass.phase, pass.calls)) := by decide +kernel
    rw [found, Option.map_some] at same
    obtain ⟨later, found_later, kept⟩ := Option.map_eq_some_iff.mp same
    obtain ⟨phase, calls⟩ := Prod.mk.inj kept
    have capped := capped 0 pass found
    have saturated := rests 0 at_rest 0 pass found (by rw [outermost]; rfl)
    rw [limit] at capped saturated
    have untouched : ∀ more, (resting.run more).world.passes[0]? = some later →
        later.permits.map Permits.free = pass.permits.map Permits.free :=
      fun more there => apart more 0 pass later found there running (phase.trans running) calls
    exact ⟨pass, at_rest, found, capped, saturated, run, unfinished, later, found_later,
      untouched narrowOthers found_later⟩
  · obtain ⟨-, gives, -⟩ := limit_caps_and_conserves .simple narrowBlueprints narrowReturn
    have ending : returning.control = .ending (.returned none) [⟨{ pass := 0 }, 0⟩] := by
      decide +kernel
    have there : (returning.world.passes[0]?).isSome = true := by decide +kernel
    obtain ⟨before, found⟩ := Option.isSome_iff_exists.mp there
    obtain ⟨after, found', gives_back⟩ :=
      gives (.returned none) ⟨{ pass := 0 }, 0⟩ [] before ending found (fun _ same => by cases same)
    exact ⟨before, after, found, found', gives_back⟩

end Fanout
