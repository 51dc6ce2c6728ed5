import Fanout.Proofs.Openings

/-! Which handlers a pass calls: those that its dispatcher's registry showed alive when the pass was
polled for the first time, each at most once at any time and exactly once in a pass that is
completed. Nothing that happens later adds a call to a pass or takes one from it. -/
namespace Fanout

/-- The handlers that the pass called, the latest first. -/
def called (p : PassId) (events : List Event) : List HandlerId := (begins p events).map Prod.snd

namespace World

def planned (w : World) (p : PassId) : List HandlerId :=
  match w.passes[p]? with
  | some pass => pass.calls.map Call.handler
  | none => []

theorem snapshot_live_mem_iff {w : World} (placed : w.Placed) (d : DispatcherId) (h : HandlerId) :
    h ∈ (w.snapshotOf d).live ↔ ∃ key entry, (w.registry d).find? key = some entry ∧
      entry.handler = h ∧ w.alive h = true := by
  refine (((placed.proper d).shows w.alive).living h).trans ?_
  simp only [Registry.Lists, ← exists_and_right, and_assoc]

theorem snapshot_live_nodup {w : World} (placed : w.Placed) (d : DispatcherId) :
    (w.snapshotOf d).live.Nodup := ((placed.proper d).shows w.alive).once

theorem readNames_congr {w w' : World} (same : ∀ h, (w'.handlers.find? h).map Handler.naming =
    (w.handlers.find? h).map Handler.naming) (hs : List HandlerId) :
    w'.readNames hs = w.readNames hs := by
  induction hs with
  | nil => rfl
  | cons h hs ih =>
    have naming := same h
    unfold readNames
    cases found : w.handlers.find? h <;> cases found' : w'.handlers.find? h
    · exact ih
    · simp [found, found'] at naming
    · simp [found, found'] at naming
    · simp only [found, found', Option.map_some, Option.some.injEq] at naming
      simp only [naming, ih]

/-- A pass reads the names that the handlers had when it was first polled. -/
theorem readNames_survey (w : World) (p : PassId) (d : DispatcherId) (hs : List HandlerId) :
    (w.survey p d).readNames hs = w.readNames hs := by
  have retained : ∀ (live : List HandlerId) (v : World) (h : HandlerId),
      ((v.retainAll live).handlers.find? h).map Handler.naming =
        (v.handlers.find? h).map Handler.naming := by
    intro live
    induction live with
    | nil => exact fun v h => rfl
    | cons x xs ih =>
      intro v h
      refine (ih (v.retain x) h).trans ?_
      simp only [retain, modifyHandler, Roster.find?_modify]
      split
      · cases v.handlers.find? h <;> rfl
      · rfl
  apply readNames_congr
  intro h
  unfold survey sweep
  dsimp only
  split <;> exact retained _ w h

/-- A pass that is closed never changes again. -/
theorem Leads.closed {w w' : World} (leads : w.Leads w') {p : PassId} {pass : Pass}
    (found : w.passes[p]? = some pass) (closed : pass.phase.isOpen = false) :
    w'.passes[p]? = some pass := by
  induction leads with
  | refl => exact found
  | tail _ progress ih =>
    cases progress.passStep.choose_spec.sight p with
    | kept same same_begins same_ends => exact same.trans ih
    | started before after fresh no_calls named caller same_begins same_ends =>
      rw [before] at ih
      cases ih
    | turned before after becomes marks =>
      rw [before, Option.some.injEq] at ih
      rw [← ih, becomes.was_open] at closed
      cases closed

theorem Leads.keeps {w w' : World} (leads : w.Leads w') {p : PassId} {pass : Pass}
    (found : w.passes[p]? = some pass) : ∃ pass', w'.passes[p]? = some pass' ∧
      pass'.lineage = pass.lineage ∧ pass'.dispatcher = pass.dispatcher := by
  induction leads with
  | refl => exact ⟨pass, found, rfl, rfl⟩
  | tail _ progress ih =>
    obtain ⟨middle, found', same_lineage, same_dispatcher⟩ := ih
    obtain ⟨last, found'', same⟩ := progress.passStep.choose_spec.keeps found'
    exact ⟨last, found'', same.1.trans same_lineage, same.2.trans same_dispatcher⟩

theorem plan_firstCalls {live : List HandlerId} {names : List String}
    (pass : Pass) (phase : Phase) (permits : Option Permits) :
    ({ pass with phase, calls := firstCalls live names, permits } : Pass).plan =
      live.zip names := by
  simp only [Pass.plan, firstCalls, List.map_zipWith]
  rfl

theorem opened_of_names {w : World} {p : PassId} {pass : Pass}
    (found : w.passes[p]? = some pass) {names : List String}
    (read : w.readNames (w.snapshotOf pass.dispatcher).live = .ok names) :
    (w.openPass p pass).1.Opened p ((w.snapshotOf pass.dispatcher).live.zip names) := by
  have passes := passes_openPass_ok found ((readNames_survey ..).trans read)
  exact ⟨_, passes ▸ getElem?_set_of_some _ found, by simp, plan_firstCalls pass .running _⟩

theorem refused_of_names {w : World} {p : PassId} {pass : Pass}
    (found : w.passes[p]? = some pass) {payload : Payload}
    (read : w.readNames (w.snapshotOf pass.dispatcher).live = .error payload) :
    (w.openPass p pass).1.passes[p]? =
      some { pass with phase := .closed (.panicked payload) } := by
  rw [passes_openPass_error found ((readNames_survey ..).trans read)]
  exact getElem?_set_of_some _ found

theorem length_names {w : World} {d : DispatcherId} {names : List String}
    (read : w.readNames (w.snapshotOf d).live = .ok names) :
    (w.snapshotOf d).live.length = names.length :=
  (readNames_forall₂ (fun _ hh => known_of_alive (alive_of_mem_live hh)) read).length_eq

theorem planned_of_found {w : World} {p : PassId} {pass : Pass} (found : w.passes[p]? = some pass) :
    w.planned p = pass.plan.map Prod.fst := by
  simp only [planned, found, Pass.plan, List.map_map]
  rfl

end World

section
variable {pass : Pass} {begun : List (Nat × HandlerId)} {ended : List (Nat × Option CallError)}
  (logged : Logged pass.calls begun ended)
include logged

theorem Logged.planned {i : Nat} {h : HandlerId} (member : (i, h) ∈ begun) :
    (pass.calls.map Call.handler)[i]? = some h := by
  obtain ⟨call, at_position, rfl, -⟩ := logged.of_begun i h member
  rw [List.getElem?_map, at_position]
  rfl

theorem Logged.called_nodup (distinct : (pass.calls.map Call.handler).Nodup) :
    (begun.map Prod.snd).Nodup := by
  refine List.Nodup.map_on ?_ logged.begun_nodup.of_map
  rintro ⟨i, h⟩ hi ⟨j, h'⟩ hj same
  have at_i := logged.planned hi
  have at_j := logged.planned hj
  have small : i < (pass.calls.map Call.handler).length := (List.getElem?_eq_some_iff.mp at_i).1
  have same_position : i = j :=
    (List.getElem?_inj small distinct).mp (by rw [at_i, at_j, ← show h = h' from same])
  rw [Prod.mk.injEq]
  exact ⟨same_position, same⟩

theorem Logged.mem_called {h : HandlerId} (member : h ∈ begun.map Prod.snd) :
    h ∈ pass.calls.map Call.handler := by
  obtain ⟨⟨i, _⟩, hm, rfl⟩ := List.mem_map.mp member
  exact List.mem_of_getElem? (logged.planned hm)

/-- In a pass whose calls are all over, and none was given up, every handler was called. -/
theorem Logged.called_all (finished : ∀ call ∈ pass.calls, call.status.outcome? ≠ none)
    {h : HandlerId} (member : h ∈ pass.calls.map Call.handler) : h ∈ begun.map Prod.snd := by
  obtain ⟨call, hc, rfl⟩ := List.mem_map.mp member
  obtain ⟨i, at_position⟩ := List.getElem?_of_mem hc
  exact List.mem_map.mpr ⟨_, logged.begun_of i call at_position (.inr (finished call hc)), rfl⟩

end

theorem Pass.Sound.outcome {pass : Pass} (sound : pass.Sound) {error : Option DispatchError}
    (closed : pass.phase = .closed (.completed error)) :
    ∀ call ∈ pass.calls, call.status.outcome? ≠ none := by
  intro call hc
  have finished := sound.closed_over _ closed call hc
  have kept := (sound.completed error closed).2 call hc
  cases hs : call.status <;> simp_all [Status.isUnfinished]

namespace World

theorem Recorded.called_nil {w : World} (recorded : w.Recorded) {p : PassId}
    (no_calls : ∀ pass : Pass, w.passes[p]? = some pass → pass.calls = []) :
    called p w.history = [] ∧ w.planned p = [] := by
  rw [called, begins_history]
  cases found : w.passes[p]? with
  | none => simp [(recorded.unstarted p found).1, planned, found]
  | some pass =>
    have logged := recorded.logged p pass found
    rw [no_calls pass found] at logged
    simp [logged.nil.1, planned, found, no_calls pass found]

/-- What a pass calls when its plan is to call these handlers. -/
theorem Recorded.called_of_planned {w : World} (recorded : w.Recorded) {p : PassId} {pass : Pass}
    (found : w.passes[p]? = some pass) {live : List HandlerId} (distinct : live.Nodup)
    (planned : pass.calls.map Call.handler = live) :
    (called p w.history).Nodup ∧ (∀ h ∈ called p w.history, h ∈ live) ∧
      ∀ error, pass.phase = .closed (.completed error) → (called p w.history).Perm live := by
  subst planned
  rw [called, begins_history]
  have logged := recorded.logged p pass found
  have nodup := logged.called_nodup distinct
  refine ⟨nodup, fun h => logged.mem_called, fun error closed => ?_⟩
  have finished := (recorded.sound p pass found).outcome closed
  exact (List.perm_ext_iff_of_nodup nodup distinct).mpr fun h =>
    ⟨logged.mem_called, logged.called_all finished⟩

end World

/-- For every run and every pass. A pass that was not polled called nobody. Once it is polled, its
plan is made from the living entries of its dispatcher's registry at that time, unless the name of
one of them panics, and no later move changes it; its calls are among them, none is called twice,
and all are called if the pass is completed. -/
theorem pass_calls_exact (arity : Arity) (blueprints : List Blueprint) (moves : List Move)
    (p : PassId) :
    let w := ((Machine.idle arity blueprints).run moves).world
    match (Machine.idle arity blueprints).openingOf p moves with
    | none => called p w.history = [] ∧ w.planned p = []
    | some opening =>
        (∀ more, (Machine.idle arity blueprints).openingOf p (moves ++ more) = some opening) ∧
        called p opening.history = [] ∧
        ∃ pass, opening.passes[p]? = some pass ∧
          let live := (opening.snapshotOf pass.dispatcher).live
          (∀ h, h ∈ live ↔ ∃ key entry,
            (opening.registry pass.dispatcher).find? key = some entry ∧ entry.handler = h ∧
              opening.alive h = true) ∧
          live.Nodup ∧
          (w.planned p = match opening.readNames live with
            | .ok _ => live
            | .error _ => []) ∧
          (called p w.history).Nodup ∧
          (∀ h ∈ called p w.history, h ∈ live) ∧
          ∀ pass' error, w.passes[p]? = some pass' → pass'.phase = .closed (.completed error) →
            (called p w.history).Perm live := by
  intro w
  have reached : w.Reached := Machine.run_reached arity blueprints moves
  have steady := Machine.steady_idle arity blueprints
  cases opens : (Machine.idle arity blueprints).openingOf p moves with
  | none =>
    have unopened : w.Unopened p :=
      Machine.run_unopened steady opens (by simp [World.Unopened, Machine.idle])
    exact reached.recorded.called_nil fun pass found => (unopened pass found).1
  | some opening =>
    obtain ⟨opening_reached, pass, found, fresh, leads⟩ := Machine.run_opened steady opens
    have placed := opening_reached.placed
    have no_calls := (opening_reached.recorded.sound p pass found).fresh_empty fresh
    have before : called p opening.history = [] := by
      refine (opening_reached.recorded.called_nil fun other same => ?_).1
      rw [found, Option.some.injEq] at same
      exact same ▸ no_calls
    have live_nodup := World.snapshot_live_nodup placed pass.dispatcher
    refine ⟨fun more => Machine.openingOf_append opens more, before, pass, found,
      World.snapshot_live_mem_iff placed pass.dispatcher, live_nodup, ?_⟩
    cases read : opening.readNames (opening.snapshotOf pass.dispatcher).live with
    | error payload =>
      have refused := leads.closed (World.refused_of_names found read) rfl
      have nothing := reached.recorded.called_nil (p := p) fun other same => by
        rw [refused, Option.some.injEq] at same
        exact same ▸ no_calls
      rw [nothing.1]
      refine ⟨nothing.2, List.nodup_nil, by simp, fun pass' error found' closed => ?_⟩
      rw [refused, Option.some.injEq] at found'
      simp [← found'] at closed
    | ok names =>
      obtain ⟨pass', found', -, plan⟩ := leads.opened (World.opened_of_names found read)
      have planned : w.planned p = (opening.snapshotOf pass.dispatcher).live := by
        rw [World.planned_of_found found', plan,
          List.map_fst_zip (World.length_names read).le]
      have handlers : pass'.calls.map Call.handler = (opening.snapshotOf pass.dispatcher).live := by
        rw [← planned, World.planned, found']
      obtain ⟨nodup, among, all⟩ :=
        reached.recorded.called_of_planned found' live_nodup handlers
      refine ⟨planned, nodup, among, fun other error same closed => ?_⟩
      rw [found', Option.some.injEq] at same
      exact all error (same ▸ closed)

end Fanout
