import Fanout.Proofs.Exactness

/-! What a pass reports. It is completed only when all its calls are over, and its answer is made
from how each of them ended and from the names that were read before the first of them. -/
namespace Fanout

/-- The error with which the call ended, if it ended with one. -/
def Call.result (call : Call) : Option CallError := call.status.outcome?.join

theorem Call.failure?_eq (call : Call) :
    call.failure? = call.result.map fun error => ⟨call.name, error⟩ := by
  unfold Call.failure? Call.result
  cases call.status with
  | finished error => cases error <;> rfl
  | _ => rfl

theorem mem_range_zip_iff {α : Type} (l : List α) (i : Nat) (a : α) :
    (i, a) ∈ (List.range l.length).zip l ↔ l[i]? = some a := by
  rw [List.mem_iff_getElem?]
  constructor
  · rintro ⟨j, hj⟩
    obtain ⟨hi, ha⟩ := List.getElem?_zip_eq_some.mp hj
    have same : j = i := by
      obtain ⟨hlt, he⟩ := List.getElem?_eq_some_iff.mp hi
      rwa [List.getElem_range] at he
    exact same ▸ ha
  · intro ha
    have small : i < l.length := (List.getElem?_eq_some_iff.mp ha).1
    exact ⟨i, List.getElem?_zip_eq_some.mpr ⟨by simp [small], ha⟩⟩

theorem nodup_range_zip {α : Type} (l : List α) : ((List.range l.length).zip l).Nodup := by
  refine List.Nodup.of_map Prod.fst ?_
  rw [List.map_fst_zip (by simp)]
  exact List.nodup_range

/-- Marks that stand exactly for the entries of a list, one for each. -/
theorem perm_range_zip {α : Type} {marks : List (Nat × α)} {l : List α}
    (nodup : (marks.map Prod.fst).Nodup) (mem : ∀ i a, (i, a) ∈ marks ↔ l[i]? = some a) :
    marks.Perm ((List.range l.length).zip l) :=
  (List.perm_ext_iff_of_nodup nodup.of_map (nodup_range_zip l)).mpr fun ⟨i, a⟩ =>
    (mem i a).trans (mem_range_zip_iff l i a).symm

section
variable {pass : Pass} {begun : List (Nat × HandlerId)} {ended : List (Nat × Option CallError)}
  (logged : Logged pass.calls begun ended)
  (finished : ∀ call ∈ pass.calls, call.status.outcome? ≠ none)
include logged finished

theorem Logged.begun_perm :
    begun.Perm ((List.range (pass.calls.map Call.handler).length).zip
      (pass.calls.map Call.handler)) := by
  refine perm_range_zip logged.begun_nodup fun i h => ⟨logged.planned, fun planned => ?_⟩
  rw [List.getElem?_map, Option.map_eq_some_iff] at planned
  obtain ⟨call, at_position, rfl⟩ := planned
  exact logged.begun_of i call at_position (.inr (finished call (List.mem_of_getElem? at_position)))

theorem Logged.ended_perm :
    ended.Perm ((List.range (pass.calls.map Call.result).length).zip
      (pass.calls.map Call.result)) := by
  refine perm_range_zip logged.ended_nodup fun i error => ?_
  rw [logged.ended_iff, List.getElem?_map, Option.map_eq_some_iff]
  constructor
  · rintro ⟨call, at_position, outcome⟩
    exact ⟨call, at_position, by rw [Call.result, outcome]; rfl⟩
  · rintro ⟨call, at_position, rfl⟩
    obtain ⟨error, outcome⟩ :=
      Option.ne_none_iff_exists'.mp (finished call (List.mem_of_getElem? at_position))
    exact ⟨call, at_position, by rw [outcome, Call.result, outcome]; rfl⟩

end

theorem Pass.failures_eq (pass : Pass) : pass.failures =
    ((pass.calls.map Call.name).zip (pass.calls.map Call.result)).filterMap
      fun entry => entry.2.map fun error => ⟨entry.1, error⟩ := by
  rw [List.zip_map', List.filterMap_map]
  exact congrArg (List.filterMap · pass.calls) (funext Call.failure?_eq)

theorem Pass.failures_eq_nil_iff (pass : Pass) :
    pass.failures = [] ↔ ∀ result ∈ pass.calls.map Call.result, result = none := by
  simp [Pass.failures, List.filterMap_eq_nil_iff, Call.failure?_eq]

/-- The answer of a pass that found these handlers alive: how all their calls ended, and what is
reported of it under the names that the handlers had in the world where the pass was opened. -/
structure Aggregate (p : PassId) (history : List Event) (opening : World)
    (live : List HandlerId) (names : List String) (results : List (Option CallError))
    (error : Option DispatchError) : Prop where
  named : List.Forall₂ (fun h name => ∃ handler, opening.handlers.find? h = some handler ∧
    handler.naming.read = .ok name) live names
  whole : results.length = live.length
  /-- The i-th call was one of the i-th handler. -/
  all_begun : (begins p history).Perm ((List.range live.length).zip live)
  /-- Every call is over, and ended with its own result. -/
  all_over : (ends p history).Perm ((List.range live.length).zip results)
  ok_iff : error = none ↔ ∀ result ∈ results, result = none
  failed : ∀ e, error = some e → ∃ failures, e = .handlersFailed live.length failures ∧
    failures = (names.zip results).filterMap
      (fun entry => entry.2.map fun error => ⟨entry.1, error⟩) ∧
    0 < failures.length ∧ failures.length ≤ live.length

/-- The calls of a completed pass make up its answer. -/
theorem World.Recorded.aggregate {w : World} (recorded : w.Recorded) {p : PassId} {pass : Pass}
    (found : w.passes[p]? = some pass) {error : Option DispatchError}
    (closed : pass.phase = .closed (.completed error)) {opening : World}
    {live : List HandlerId} {names : List String}
    (named : List.Forall₂ (fun h name => ∃ handler, opening.handlers.find? h = some handler ∧
      handler.naming.read = .ok name) live names)
    (plan : pass.plan = live.zip names) :
    Aggregate p w.history opening live names (pass.calls.map Call.result) error := by
  have sound := recorded.sound p pass found
  have logged := recorded.logged p pass found
  have finished := sound.outcome closed
  have answer : error = pass.error? := (sound.completed error closed).1
  have handlers : pass.calls.map Call.handler = live := by
    rw [← List.map_fst_zip named.length_eq.le, ← plan, Pass.plan, List.map_map]
    rfl
  have call_names : pass.calls.map Call.name = names := by
    rw [← List.map_snd_zip named.length_eq.ge, ← plan, Pass.plan, List.map_map]
    rfl
  have number : pass.calls.length = live.length := by
    rw [← handlers, List.length_map]
  have all_over := logged.ended_perm finished
  rw [List.length_map, number] at all_over
  refine ⟨named, ?_, ?_, ?_, ?_, fun e failed => ⟨pass.failures, ?_, ?_, ?_, ?_⟩⟩
  · rw [List.length_map, number]
  · rw [begins_history, ← handlers]
    exact logged.begun_perm finished
  · rw [ends_history]
    exact all_over
  · rw [answer, ← pass.failures_eq_nil_iff, Pass.error?]
    split <;> simp_all
  · rw [answer, Pass.error?] at failed
    split at failed
    · cases failed
    · rw [← Option.some.inj failed, number]
  · rw [pass.failures_eq, call_names]
  · rw [answer, Pass.error?] at failed
    split at failed
    · cases failed
    · rename_i some_failed
      exact List.length_pos_iff.mpr some_failed
  · rw [← number]
    exact List.length_filterMap_le ..

/-- Whenever a pass of a run is completed, its answer is the aggregate of all its calls. -/
theorem pass_answer_exact (arity : Arity) (blueprints : List Blueprint) (moves : List Move)
    (p : PassId) {pass : Pass} {error : Option DispatchError}
    (found : ((Machine.idle arity blueprints).run moves).world.passes[p]? = some pass)
    (closed : pass.phase = .closed (.completed error)) :
    ∃ opening names results, (Machine.idle arity blueprints).openingOf p moves = some opening ∧
      Aggregate p ((Machine.idle arity blueprints).run moves).world.history opening
        (opening.snapshotOf pass.dispatcher).live names results error := by
  have reached := Machine.run_reached arity blueprints moves
  have steady := Machine.steady_idle arity blueprints
  cases opens : (Machine.idle arity blueprints).openingOf p moves with
  | none =>
    have unopened := Machine.run_unopened steady opens
      (by simp [World.Unopened, Machine.idle]) pass found
    exact absurd closed (unopened.2.2 error)
  | some opening =>
    obtain ⟨opening_reached, first, found_first, fresh, leads⟩ := Machine.run_opened steady opens
    have whole_run : opening.Leads ((Machine.idle arity blueprints).run moves).world :=
      leads.head (.opening found_first fresh)
    obtain ⟨last, found_last, -, same_dispatcher⟩ := whole_run.keeps found_first
    rw [found, Option.some.injEq] at found_last
    subst found_last
    rw [same_dispatcher]
    cases read : opening.readNames (opening.snapshotOf first.dispatcher).live with
    | error payload =>
      have refused := leads.closed (World.refused_of_names found_first read) rfl
      rw [found, Option.some.injEq] at refused
      simp [refused] at closed
    | ok names =>
      obtain ⟨last, found_last, -, plan⟩ := leads.opened (World.opened_of_names found_first read)
      rw [found, Option.some.injEq] at found_last
      subst found_last
      have named := World.readNames_forall₂
        (fun _ hh => World.known_of_alive (World.alive_of_mem_live hh)) read
      exact ⟨opening, names, _, rfl, reached.recorded.aggregate found closed named plan⟩

/-- One handler renames another and fails; the other, whose call is still to come, panics. -/
def renamingBlueprints : List Blueprint :=
  [{ scripts := [[.act (.rename (some "b") (some "late")) false, .fail (.failed "no")]] },
    { make := .custom none none, scripts := [[.panic (.fixed "boom")]] }]

def renamingMoves : List Move :=
  [.act (.createDispatcher (some "d") .usual), .act (.createHandler (some "a") 0 none),
    .act (.createHandler (some "b") 1 none), .act (.register (some "d") (some "a")),
    .act (.register (some "d") (some "b")), .start { dispatcher := some "d" }, .poll 0] ++
  List.replicate 13 .tick

/-- Both failures are reported, the second under the name before the change. -/
theorem pass_answer_renamed :
    ∃ pass, ((Machine.idle .simple renamingBlueprints).run renamingMoves).world.passes[0]? =
      some pass ∧
    pass.phase = .closed (.completed (some (.handlersFailed 2
      [⟨"a", .failed "no"⟩, ⟨"b", .panicked "boom"⟩]))) ∧
    ∃ opening names results,
      (Machine.idle .simple renamingBlueprints).openingOf 0 renamingMoves = some opening ∧
      Aggregate 0
        ((Machine.idle .simple renamingBlueprints).run renamingMoves).world.history opening
        (opening.snapshotOf pass.dispatcher).live names results
        (some (.handlersFailed 2 [⟨"a", .failed "no"⟩, ⟨"b", .panicked "boom"⟩])) := by
  have closed : (((Machine.idle .simple renamingBlueprints).run
      renamingMoves).world.passes[0]?).map Pass.phase = some (.closed (.completed (some
        (.handlersFailed 2 [⟨"a", .failed "no"⟩, ⟨"b", .panicked "boom"⟩])))) := by decide +kernel
  obtain ⟨pass, found, phase⟩ := Option.map_eq_some_iff.mp closed
  exact ⟨pass, found, phase,
    pass_answer_exact .simple renamingBlueprints renamingMoves 0 found phase⟩

end Fanout
