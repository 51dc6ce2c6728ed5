import Fanout.Proofs.Aggregate

/-! The order of failures. A pass reports its failures in the order of its calls, which is that of
its snapshot, and not in the order in which they ended: that order shows only where the calls happen
to end badly one after another in the order of their positions. -/
namespace Fanout

/-- The calls of the pass that ended badly, in the order in which they ended: their positions and
their errors. -/
def endedBadly (p : PassId) (history : List Event) : List (Nat × CallError) :=
  (ends p history).reverse.filterMap fun e => e.2.map (e.1, ·)

def errorsOf (results : List (Option CallError)) : List (Nat × CallError) :=
  ((List.range results.length).zip results).filterMap fun e => e.2.map (e.1, ·)

/-- The failure tells of the call at this position, that it ended with this error. -/
def Pass.Tells (pass : Pass) (entry : Nat × CallError) (failure : Failure) : Prop :=
  ∃ call, pass.calls[entry.1]? = some call ∧ failure = ⟨call.name, entry.2⟩

/-- Nearer to the front in the snapshot. -/
abbrev Ascending (entries : List (Nat × CallError)) : Prop :=
  entries.Pairwise fun x y => x.1 < y.1

theorem ascending_errorsOf (results : List (Option CallError)) : Ascending (errorsOf results) := by
  have positions : ((List.range results.length).zip results).Pairwise fun x y => x.1 < y.1 := by
    rw [← List.pairwise_map (f := Prod.fst), List.map_fst_zip (by simp)]
    exact List.pairwise_lt_range
  refine positions.filterMap _ fun x y before a ha b hb => ?_
  obtain ⟨_, -, rfl⟩ := Option.map_eq_some_iff.mp ha
  obtain ⟨_, -, rfl⟩ := Option.map_eq_some_iff.mp hb
  exact before

/-- There is only one way to put calls in the order of their positions. -/
theorem Ascending.eq_iff {entries others : List (Nat × CallError)} (ascending : Ascending entries)
    (perm : entries.Perm others) : entries = others ↔ Ascending others := by
  constructor
  · rintro rfl
    exact ascending
  · intro also
    exact perm.eq_of_pairwise (fun x y _ _ before after => absurd before after.asymm) ascending also

namespace Pass
variable (pass : Pass)

theorem tells_failures :
    List.Forall₂ pass.Tells (errorsOf (pass.calls.map Call.result)) pass.failures := by
  have zipped : (List.range (pass.calls.map Call.result).length).zip (pass.calls.map Call.result) =
      ((List.range pass.calls.length).zip pass.calls).map fun e => (e.1, e.2.result) := by
    rw [List.length_map, ← List.map_id (List.range pass.calls.length), List.zip_map]
    simp
  have failures : pass.failures =
      ((List.range pass.calls.length).zip pass.calls).filterMap fun e => e.2.failure? := by
    have second : ((List.range pass.calls.length).zip pass.calls).map Prod.snd = pass.calls :=
      List.map_snd_zip (by simp)
    conv_lhs => rw [Pass.failures, ← second, List.filterMap_map]
    rfl
  rw [errorsOf, zipped, failures, List.filterMap_map]
  have placed : ∀ e ∈ (List.range pass.calls.length).zip pass.calls, pass.calls[e.1]? = some e.2 :=
    fun e => (mem_range_zip_iff pass.calls e.1 e.2).mp
  generalize (List.range pass.calls.length).zip pass.calls = entries at placed
  induction entries with
  | nil => exact .nil
  | cons e entries ih =>
    have rest := ih fun e member => placed e (List.mem_cons_of_mem _ member)
    simp only [List.filterMap_cons, Function.comp_apply, e.2.failure?_eq]
    cases result : e.2.result with
    | none => exact rest
    | some error => exact .cons ⟨e.2, placed e List.mem_cons_self, rfl⟩ rest

end Pass

theorem World.Recorded.errors_perm {w : World} (recorded : w.Recorded) {p : PassId} {pass : Pass}
    (found : w.passes[p]? = some pass) {error : Option DispatchError}
    (closed : pass.phase = .closed (.completed error)) :
    (errorsOf (pass.calls.map Call.result)).Perm (endedBadly p w.history) := by
  have finished := (recorded.sound p pass found).outcome closed
  have ended := (recorded.logged p pass found).ended_perm finished
  rw [← w.ends_history] at ended
  exact ((List.reverse_perm _).trans ended).symm.filterMap _

/-- Whenever a pass returns that some of its calls failed, it tells of them in the order of their
positions. Told in the order in which they ended, the same failures stand in the same order exactly
if the calls ended badly in the order of their positions. -/
theorem failures_in_snapshot_order (arity : Arity) (blueprints : List Blueprint)
    (moves : List Move) (p : PassId) {pass : Pass} {total : Nat} {failures : List Failure}
    (found : ((Machine.idle arity blueprints).run moves).world.passes[p]? = some pass)
    (closed : pass.phase = .closed (.completed (some (.handlersFailed total failures)))) :
    let ended := endedBadly p ((Machine.idle arity blueprints).run moves).world.history
    ∃ entries, entries.Perm ended ∧ Ascending entries ∧
      List.Forall₂ pass.Tells entries failures ∧ (entries = ended ↔ Ascending ended) := by
  intro ended
  have recorded := (Machine.run_reached arity blueprints moves).recorded
  have perm := recorded.errors_perm found closed
  have ascending := ascending_errorsOf (pass.calls.map Call.result)
  have answer : failures = pass.failures := by
    have reported := ((recorded.sound p pass found).completed _ closed).1
    unfold Pass.error? at reported
    split at reported
    · cases reported
    · cases reported
      rfl
  exact ⟨_, perm, ascending, answer ▸ pass.tells_failures, ascending.eq_iff perm⟩

/-- The first handler lets the other one go first, and then both fail. -/
def overtakenBlueprints : List Blueprint :=
  [{ scripts := [[.linger 1, .fail (.failed "slow")]] }, { scripts := [[.fail (.failed "fast")]] }]

def overtakenMoves : List Move :=
  [.act (.createDispatcher (some "d") .usual), .act (.createHandler (some "a") 0 none),
    .act (.createHandler (some "b") 1 none), .act (.register (some "d") (some "a")),
    .act (.register (some "d") (some "b")), .start { dispatcher := some "d" }, .poll 0] ++
  List.replicate 20 .tick

/-- The call of the second handler ended before that of the first one, and it is reported after
it. -/
theorem overtaken_failure_comes_last :
    let w := ((Machine.idle .simple overtakenBlueprints).run overtakenMoves).world
    (w.passes[0]?).map Pass.phase = some (.closed (.completed (some (.handlersFailed 2
      [⟨"a", .failed "slow"⟩, ⟨"b", .failed "fast"⟩])))) ∧
    endedBadly 0 w.history = [(1, .failed "fast"), (0, .failed "slow")] ∧
    ∀ pass, w.passes[0]? = some pass → ¬ List.Forall₂ pass.Tells (endedBadly 0 w.history)
      [⟨"a", .failed "slow"⟩, ⟨"b", .failed "fast"⟩] := by
  intro w
  have ended : endedBadly 0 w.history = [(1, .failed "fast"), (0, .failed "slow")] := by
    decide +kernel
  refine ⟨by decide +kernel, ended, fun pass _ told => ?_⟩
  rw [ended] at told
  obtain ⟨⟨call, -, same⟩, -⟩ := List.forall₂_cons.mp told
  simp at same

/-- The same two failures, in the order of the snapshot. -/
theorem failures_in_snapshot_order_overtaken :
    let w := ((Machine.idle .simple overtakenBlueprints).run overtakenMoves).world
    ∃ pass entries, w.passes[0]? = some pass ∧
      entries.Perm [(1, .failed "fast"), (0, .failed "slow")] ∧ Ascending entries ∧
      List.Forall₂ pass.Tells entries [⟨"a", .failed "slow"⟩, ⟨"b", .failed "fast"⟩] ∧
      entries ≠ [(1, .failed "fast"), (0, .failed "slow")] := by
  intro w
  have state : (w.passes[0]?).map Pass.phase = some (.closed (.completed (some (.handlersFailed 2
      [⟨"a", .failed "slow"⟩, ⟨"b", .failed "fast"⟩])))) := by decide +kernel
  have ended : endedBadly 0 w.history = [(1, .failed "fast"), (0, .failed "slow")] := by
    decide +kernel
  obtain ⟨pass, found, closed⟩ := Option.map_eq_some_iff.mp state
  obtain ⟨entries, perm, ascending, told, same_iff⟩ :=
    failures_in_snapshot_order .simple overtakenBlueprints overtakenMoves 0 found closed
  change entries.Perm (endedBadly 0 w.history) at perm
  change entries = endedBadly 0 w.history ↔ Ascending (endedBadly 0 w.history) at same_iff
  rw [ended] at perm same_iff
  exact ⟨pass, entries, found, perm, ascending, told, fun same =>
    absurd (same_iff.mp same) (by decide)⟩

end Fanout
