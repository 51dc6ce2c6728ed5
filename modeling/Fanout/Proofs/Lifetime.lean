import Fanout.Proofs.Exactness
import Fanout.Proofs.Guards

/-! How long a handler lives. Nothing keeps it but the strong references of its owner and the calls
of it that are not over in passes that were polled, whether they run or wait for a permit; and it is
reclaimed in the very move in which the last of these goes. No purge and no first poll of another
pass takes the entry of a handler from a registry as long as a call of it is pending. -/
namespace Fanout

/-- Calls that are not over are found in passes that were polled and are not closed. -/
theorem Pass.Sound.running_of_unfinished {pass : Pass} (sound : pass.Sound) {call : Call}
    (member : call ∈ pass.calls) (unfinished : call.status.isUnfinished = true) :
    pass.phase = .running := by
  cases phase : pass.phase with
  | running => rfl
  | fresh =>
    rw [sound.fresh_empty phase] at member
    cases member
  | closed ending =>
    rw [sound.closed_over ending phase call member] at unfinished
    cases unfinished

namespace World

def Owned (w : World) (h : HandlerId) : Prop :=
  ∃ handler, w.handlers.find? h = some handler ∧ handler.owned ≠ 0

/-- A pass that was polled and is not closed has a call of the handler that is not over. -/
def Pending (w : World) (h : HandlerId) : Prop :=
  ∃ p i pass call, w.IsCall p i pass call ∧ call.handler = h ∧ call.status.isUnfinished = true

theorem holds_ne_zero_iff (w : World) (h : HandlerId) : w.holds h ≠ 0 ↔
    ∃ (p : PassId) (i : Nat) (pass : Pass) (call : Call), w.passes[p]? = some pass ∧
      pass.calls[i]? = some call ∧ call.handler = h ∧ call.status.isUnfinished = true := by
  simp only [holds, Pass.holds, Call.holds, ne_eq, List.sum_eq_zero_iff, List.mem_map,
    forall_exists_index, and_imp, forall_apply_eq_imp_iff₂, ite_eq_right_iff, one_ne_zero,
    imp_false, not_forall, not_not, exists_prop]
  constructor
  · rintro ⟨pass, pass_mem, call, call_mem, here, unfinished⟩
    obtain ⟨p, found⟩ := List.getElem?_of_mem pass_mem
    obtain ⟨i, at_position⟩ := List.getElem?_of_mem call_mem
    exact ⟨p, i, pass, call, found, at_position, here, unfinished⟩
  · rintro ⟨p, i, pass, call, found, at_position, here, unfinished⟩
    exact ⟨pass, List.mem_of_getElem? found, call, List.mem_of_getElem? at_position, here,
      unfinished⟩

theorem Recorded.running_of_unfinished {w : World} (recorded : w.Recorded) {p : PassId}
    {pass : Pass} (found : w.passes[p]? = some pass) {call : Call} (member : call ∈ pass.calls)
    (unfinished : call.status.isUnfinished = true) : pass.phase = .running :=
  (recorded.sound p pass found).running_of_unfinished member unfinished

theorem Recorded.pending_iff {w : World} (recorded : w.Recorded) (h : HandlerId) :
    w.Pending h ↔ w.holds h ≠ 0 := by
  rw [holds_ne_zero_iff]
  constructor
  · rintro ⟨p, i, pass, call, call_of, here, unfinished⟩
    exact ⟨p, i, pass, call, call_of.found, call_of.at_position, here, unfinished⟩
  · rintro ⟨p, i, pass, call, found, at_position, here, unfinished⟩
    have running :=
      recorded.running_of_unfinished found (List.mem_of_getElem? at_position) unfinished
    exact ⟨p, i, pass, call, ⟨found, running, at_position⟩, here, unfinished⟩

def Kept (w : World) (h : HandlerId) : Prop := w.Owned h ∨ w.Pending h

theorem Reached.kept_iff {w : World} (reached : w.Reached) {h : HandlerId} {handler : Handler}
    (found : w.handlers.find? h = some handler) : w.Kept h ↔ handler.strong ≠ 0 := by
  have strong := ((balancedAt_iff found).mp (reached.balanced h)).1
  have owned : w.Owned h ↔ handler.owned ≠ 0 := by simp [Owned, found]
  rw [List.count_nil] at strong
  rw [Kept, owned, reached.recorded.pending_iff]
  omega

theorem Reached.made_of_kept {w : World} (reached : w.Reached) {h : HandlerId} (kept : w.Kept h) :
    ∃ handler, w.handlers.find? h = some handler := by
  rcases kept with ⟨handler, found, -⟩ | pending
  · exact ⟨handler, found⟩
  · have held := Nat.pos_of_ne_zero ((reached.recorded.pending_iff h).mp pending)
    obtain ⟨handler, found, -⟩ := reached.balanced.known (.inr held)
    exact ⟨handler, found⟩

theorem Reached.alive_iff_kept {w : World} (reached : w.Reached) (h : HandlerId) :
    w.alive h = true ↔ w.Kept h := by
  constructor
  · intro alive
    obtain ⟨handler, found⟩ := known_of_alive alive
    rw [reached.kept_iff found]
    simpa [World.alive, found, Handler.alive, Nat.pos_iff_ne_zero] using alive
  · intro kept
    obtain ⟨handler, found⟩ := reached.made_of_kept kept
    simpa [World.alive, found, Handler.alive, Nat.pos_iff_ne_zero] using
      (reached.kept_iff found).mp kept

theorem Reached.reclaimed_iff {w : World} (reached : w.Reached) {h : HandlerId} {handler : Handler}
    (found : w.handlers.find? h = some handler) :
    .reclaimed h ∈ w.history ↔ ¬ w.Kept h := by
  rw [reached.kept_iff found, not_not]
  exact ((balancedAt_iff found).mp (reached.balanced h)).2

/-- Of the handlers that were kept, those are told to be reclaimed that are not kept any more. -/
theorem Reached.reclaims {w w' : World} (reached : w.Reached) (leads : w.Leads w') :
    ∃ events, w'.history = events ++ w.history ∧
      ∀ h, w.Kept h → (.reclaimed h ∈ events ↔ ¬ w'.Kept h) := by
  obtain ⟨events, grown⟩ := leads.history
  refine ⟨events, grown, fun h kept => ?_⟩
  obtain ⟨handler, found⟩ := reached.made_of_kept kept
  obtain ⟨handler', found', -⟩ := leads.lies ⟨handler, found, rfl⟩
  have not_before : .reclaimed h ∉ w.history :=
    fun gone => (reached.reclaimed_iff found).mp gone kept
  rw [← (reached.leads leads).reclaimed_iff found', grown, List.mem_append]
  exact (or_iff_left not_before).symm

theorem Placed.find?_purge {w : World} (placed : w.Placed) {d : DispatcherId} {key : Key}
    {entry : Registration} (found : (w.registry d).find? key = some entry)
    (alive : w.alive entry.handler = true) :
    ((w.registry d).purge w.alive).2.find? key = some entry :=
  (Registry.find?_purge (placed.distinct d) w.alive key entry).mpr ⟨found, alive⟩

theorem registry_written {w : World} {d e : DispatcherId} {key : Key} {entry : Registration}
    (found : (w.registry d).find? key = some entry) {registry : Registry}
    (kept : e = d → registry.find? key = some entry) :
    ((w.setRegistry e registry).registry d).find? key = some entry := by
  by_cases same : e = d
  · subst same
    rw [registry_setRegistry w (lt_of_entry (Roster.mem_of_lookup found))]
    exact kept rfl
  · rw [registry_setRegistry_of_ne w same]
    exact found

/-- A purge leaves the entries of living handlers where they are. -/
theorem Placed.purge_keeps {w : World} (placed : w.Placed) {d : DispatcherId} {key : Key}
    {entry : Registration} (found : (w.registry d).find? key = some entry)
    (alive : w.alive entry.handler = true) (e : DispatcherId) (by_pass : Option PassId) :
    ((w.purge e by_pass).1.registry d).find? key = some entry := by
  refine registry_written (e := e) found fun same => ?_
  subst same
  exact placed.find?_purge found alive

/-- So does the first poll of a pass. -/
theorem Placed.openPass_keeps {w : World} (placed : w.Placed) {d : DispatcherId} {key : Key}
    {entry : Registration} (found : (w.registry d).find? key = some entry)
    (alive : w.alive entry.handler = true) (p : PassId) (pass : Pass) :
    ((w.openPass p pass).1.registry d).find? key = some entry := by
  obtain ⟨events, -, aside⟩ := survey_written w p pass.dispatcher
  rw [registry_of_dispatchers (aside.trans (survey_opened w p pass)).dispatchers]
  refine registry_written (e := pass.dispatcher) found fun same => ?_
  subst same
  exact placed.find?_purge found alive

end World

/-- A handler lives as long as its owner or an unfinished call keeps it, and no longer. -/
theorem handler_lifetime (arity : Arity) (blueprints : List Blueprint) (moves : List Move) :
    let m := (Machine.idle arity blueprints).run moves
    let w := m.world
    (∀ h, w.alive h = true ↔ w.Owned h ∨ w.Pending h) ∧
    (∀ d key entry, (w.registry d).find? key = some entry → w.Pending entry.handler →
      (∀ e by_pass, ((w.purge e by_pass).1.registry d).find? key = some entry) ∧
      ∀ p pass, w.passes[p]? = some pass → pass.phase = .fresh →
        ((w.openPass p pass).1.registry d).find? key = some entry) ∧
    ∀ move, ∃ events, (m.move move).world.history = events ++ w.history ∧
      ∀ h, w.Owned h ∨ w.Pending h →
        (.reclaimed h ∈ events ↔
          ¬ ((m.move move).world.Owned h ∨ (m.move move).world.Pending h)) := by
  intro m w
  have steady : m.Steady := (Machine.run_steady (Machine.steady_idle arity blueprints) moves).2
  have reached : w.Reached := steady.reached
  refine ⟨reached.alive_iff_kept, fun d key entry found pending => ?_, fun move => ?_⟩
  · have alive := (reached.alive_iff_kept entry.handler).mpr (.inr pending)
    exact ⟨reached.placed.purge_keeps found alive,
      fun p pass _ _ => reached.placed.openPass_keeps found alive p pass⟩
  · exact reached.reclaims (Machine.move_steady steady move).1

/-- A handler waits at a gate. -/
def parkingBlueprints : List Blueprint := [{ scripts := [[.waitFor "g"]] }]

/-- A call waits at the gate when the owner of its handler drops the last strong reference. -/
def parkedMoves : List Move :=
  [.act (.createDispatcher (some "d") .usual), .act (.createHandler (some "a") 0 none),
    .act (.register (some "d") (some "a")), .start { dispatcher := some "d" }, .poll 0] ++
  List.replicate 7 .tick ++ [.act (.drop (some "a"))]

/-- The gate is opened, and the call is about to return. -/
def returningMoves : List Move :=
  parkedMoves ++ [.act (.openGate (some "g")), .poll 0] ++ List.replicate 4 .tick

/-- The call alone keeps its handler, whose entry a purge spares, until the call returns. -/
theorem handler_lifetime_parked :
    let parked := ((Machine.idle .simple parkingBlueprints).run parkedMoves).world
    let returning := (Machine.idle .simple parkingBlueprints).run returningMoves
    parked.alive "a" = true ∧ parked.Pending "a" ∧
    ((parked.purge 0 none).1.registry 0).find? (parked.keyOf "a") = some ⟨"a", 1⟩ ∧
    ∃ events, (returning.move .tick).world.history = events ++ returning.world.history ∧
      .reclaimed "a" ∈ events := by
  intro parked returning
  obtain ⟨lives, spared, -⟩ := handler_lifetime .simple parkingBlueprints parkedMoves
  have alive : parked.alive "a" = true := by decide +kernel
  have not_owned : ¬ parked.Owned "a" := by
    rintro ⟨handler, found, owned⟩
    have none_owned : (parked.handlers.find? "a").map Handler.owned = some 0 := by decide +kernel
    rw [found, Option.map_some, Option.some.injEq] at none_owned
    exact owned none_owned
  have pending : parked.Pending "a" := ((lives "a").mp alive).resolve_left not_owned
  have entry : (parked.registry 0).find? (parked.keyOf "a") = some ⟨"a", 1⟩ := by decide +kernel
  refine ⟨alive, pending, (spared 0 _ _ entry pending).1 0 none, ?_⟩
  obtain ⟨lives_still, -, reclaims⟩ := handler_lifetime .simple parkingBlueprints returningMoves
  obtain ⟨events, grown, gone⟩ := reclaims .tick
  have kept := (lives_still "a").mp (by decide +kernel)
  have dead := (handler_lifetime .simple parkingBlueprints (returningMoves ++ [.tick])).1 "a"
  rw [Machine.run_append] at dead
  exact ⟨events, grown, (gone "a" kept).mpr (dead.not.mp (by decide +kernel))⟩

end Fanout
