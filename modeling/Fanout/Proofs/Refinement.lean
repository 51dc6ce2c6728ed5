import Fanout.Proofs.Operations

/-! The registry of a dispatcher as what was done to it tells: who has an entry, with which
generation, and how many there are. -/
namespace Fanout

/-- The history of a registry and what was done to it say the same about its registrations. -/
structure Reads (d : DispatcherId) (history : List Event) (ops : List Operation) : Prop where
  inserts : inserts d history = Operation.inserts ops
  latest : ∀ h, latest d h history = Operation.latest h ops
  standing : ∀ h, standing d h history = Operation.standing h ops

namespace Reads
variable {d : DispatcherId} {history : List Event} {ops : List Operation}

theorem quiet (reads : Reads d history ops) {later : List Event}
    (quiet : ∀ e ∈ later, Event.touches d e = false) : Reads d (later ++ history) ops where
  inserts := (inserts_append_of_quiet quiet history).trans reads.inserts
  latest h := (latest_append_of_quiet quiet history).trans (reads.latest h)
  standing h := (standing_append_of_quiet quiet history).trans (reads.standing h)

theorem cons (reads : Reads d history ops) {event : Event} {op : Operation}
    (registrant : event.registrant? d = op.registrant?)
    (removes : ∀ h, event.removes d h history = op.removes h ops) :
    Reads d (event :: history) (op :: ops) where
  inserts := by
    rw [inserts_cons, Operation.inserts, List.countP_cons, registrant, reads.inserts]
    rfl
  latest h := by
    rw [Fanout.latest, Operation.latest, registrant, reads.inserts, reads.latest]
  standing h := by
    rw [Fanout.standing, Operation.standing, registrant, removes, reads.inserts, reads.standing]

/-- What a pass counts when it purges the registry changes nothing. -/
theorem counted (reads : Reads d history ops) (p : PassId) (count : Nat) :
    Reads d (.purged d (some p) count :: history) ops where
  inserts := reads.inserts
  latest := reads.latest
  standing := reads.standing

end Reads

namespace World

theorem Reached.mem_reclaimed {w : World} (reached : w.Reached) (h : HandlerId) :
    h ∈ w.reclaimed ↔ .reclaimed h ∈ w.history := by
  rw [reclaimed, List.mem_filter, Roster.mem_keys_iff]
  cases found : w.handlers.find? h with
  | none =>
    have unknown := reached.balanced h
    unfold BalancedAt at unknown
    rw [found] at unknown
    simp [Roster.has, found, unknown.2.2]
  | some handler => simp [Roster.has, found, reached.alive_eq found]

/-- What is done to the registry so far is what the history tells of, and a guard that is not let go
goes back to the registration with which it was given out. -/
structure Recalls (w : World) (d : DispatcherId) (ops : List Operation) : Prop where
  reads : Reads d w.history ops
  guards : ∀ name guard, w.guards.find? name = some guard → guard.dispatcher = some d →
    Operation.given name ops = some guard.generation.toNat

/-- A handler that has no entry does not stand. -/
theorem Reached.standing_of_absent {w : World} (reached : w.Reached) {d : DispatcherId}
    (kept : w.keeps d = true) (bound : inserts d w.history < 2 ^ 64) {h : HandlerId}
    (absent : (w.registry d).find? (w.keyOf h) = none) : standing d h w.history = none := by
  cases stands : standing d h w.history with
  | none => rfl
  | some n =>
    obtain ⟨key, entry, found, rfl⟩ := (reached.tells kept bound).present h n stands
    rw [(reached.placed.at_home d key entry found).keyOf, found] at absent
    cases absent

theorem Recalls.told {w : World} (reached : w.Reached) {d : DispatcherId} {ops : List Operation}
    (recalls : w.Recalls d ops) (bound : inserts d w.history < 2 ^ 64) {op : Option Operation}
    {events : List Event} (told : w.Told d op events) :
    Reads d (events ++ w.history) (op.toList ++ ops) := by
  have reads := recalls.reads
  cases told with
  | nothing => exact reads
  | register h => exact reads.cons (by simp [Event.registrant?, Operation.registrant?]) fun _ => rfl
  | subscribe guard h =>
    exact reads.cons (by simp [Event.registrant?, Operation.registrant?]) fun _ => rfl
  | unregister h removed => exact reads.cons rfl fun x => by simp [Event.removes, Operation.removes]
  | @refused h named absent =>
    -- nothing is told of a refusal, but the handler did not stand before either
    have fallen := reached.standing_of_absent (keeps_of_named named) bound absent
    refine ⟨reads.inserts, reads.latest, fun x => ?_⟩
    by_cases same : h = x
    · subst same
      rw [List.nil_append, fallen]
      simp [Operation.standing, Operation.registrant?, Operation.removes]
    · simpa [Operation.standing, Operation.registrant?, Operation.removes, same] using
        reads.standing x
  | release held belongs removed =>
    refine reads.cons rfl fun x => ?_
    simp [Event.removes, Operation.removes, recalls.guards _ _ held belongs, reads.latest x]
  | purge count =>
    refine reads.cons rfl fun x => ?_
    simp [Event.removes, Operation.removes, reached.mem_reclaimed x]
  | @poll p live dead counts swept =>
    have counted : Reads d (counts ++ w.history) ops := by
      rcases swept with ⟨rfl, -⟩ | ⟨count, rfl⟩
      · exact reads
      · exact reads.counted p count
    refine counted.cons rfl fun x => ?_
    rw [Event.removes, reclaimed_of_swept swept]
    simp [Operation.removes, reached.mem_reclaimed x]

theorem given_append_toList {name : String} {op : Option Operation} {ops : List Operation}
    (other : ∀ h, op ≠ some (.subscribe name h)) :
    Operation.given name (op.toList ++ ops) = Operation.given name ops := by
  cases op with
  | none => rfl
  | some op =>
    cases op with
    | subscribe given h =>
      have different : given ≠ name := by
        rintro rfl
        exact other h rfl
      exact if_neg different
    | _ => rfl

theorem Recalls.step {w w' : World} (reached : w.Reached) {d : DispatcherId}
    {ops : List Operation} (recalls : w.Recalls d ops) {op : Option Operation}
    (enacts : w.Enacts d op w') (bound : Operation.inserts (op.toList ++ ops) < 2 ^ 64) :
    w'.Recalls d (op.toList ++ ops) := by
  obtain ⟨later, events, history, quiet, told⟩ := enacts.history
  have counted := recalls.reads.inserts
  have before : inserts d w.history < 2 ^ 64 :=
    counted ▸ (Operation.inserts_le_append _ _).trans_lt bound
  constructor
  · rw [history]
    exact (recalls.told reached before told).quiet quiet
  · intro name guard found belongs
    rcases enacts.guards name guard found belongs with ⟨h, rfl, next⟩ | ⟨held, other⟩
    · have registered : Operation.inserts ((some (Operation.subscribe name h)).toList ++ ops) =
          inserts d w.history + 1 := by
        rw [counted]
        exact List.countP_cons
      rw [registered] at bound
      rw [next, reached.next_generation bound, counted]
      exact if_pos rfl
    · rw [given_append_toList other]
      exact recalls.guards name guard held belongs

end World

/-- What a whole run does to a registry is what the history tells of it. -/
theorem Machine.recalls_run {m : Machine} (steady : m.Steady) {d : DispatcherId}
    {moves : List Move} {ops : List Operation} (recalls : m.world.Recalls d ops)
    (bound : Operation.inserts (m.operations d moves ++ ops) < 2 ^ 64) :
    (m.run moves).world.Recalls d (m.operations d moves ++ ops) := by
  -- the operations before these moves are carried along, as those that came earlier
  induction moves generalizing m ops with
  | nil => exact recalls
  | cons move moves ih =>
    rw [operations, List.append_assoc] at bound ⊢
    refine ih (move_steady steady move).2 ?_ bound
    exact recalls.step steady.reached (enacts_move m d move)
      ((Operation.inserts_le_append _ _).trans_lt bound)

theorem Machine.recalls_idle (arity : Arity) (blueprints : List Blueprint) (d : DispatcherId) :
    (idle arity blueprints).world.Recalls d [] :=
  ⟨⟨rfl, fun _ => rfl, fun _ => rfl⟩, fun _ _ found => nomatch found⟩

/-- The registry has entries of the handlers that stand, after so many registrations. -/
structure Registry.Refines (registry : Registry) (standing : HandlerId → Option Nat)
    (inserts : Nat) : Prop where
  entry_iff : ∀ h, (∃ key entry, registry.find? key = some entry ∧ entry.handler = h) ↔
    standing h ≠ none
  single : ∀ key entry key' entry', registry.find? key = some entry →
    registry.find? key' = some entry' → entry.handler = entry'.handler → key = key'
  /-- Nothing stands for an empty handle. -/
  nowhere : registry.find? .nowhere = none
  generation : ∀ key entry, registry.find? key = some entry →
    standing entry.handler = some entry.generation.toNat
  generations_distinct : ∀ key entry key' entry', registry.find? key = some entry →
    registry.find? key' = some entry' → entry.generation = entry'.generation → key = key'
  at_most_counter : ∀ key entry, registry.find? key = some entry →
    entry.generation ≤ registry.counter
  counter : registry.counter.toNat = inserts

namespace World

theorem Reached.refines {w : World} (reached : w.Reached) {d : DispatcherId}
    (kept : w.keeps d = true) (bound : inserts d w.history < 2 ^ 64) :
    (w.registry d).Refines (standing d · w.history) (inserts d w.history) := by
  have tells := reached.tells kept bound
  have placed := reached.placed
  have counter := reached.counter d
  rw [Nat.mod_eq_of_lt bound] at counter
  refine ⟨fun h => ⟨?_, fun stands => ?_⟩, fun key entry key' entry' => placed.key_eq,
    placed.find?_nowhere d, tells.entry, ?_, fun key entry found => ?_, counter⟩
  · rintro ⟨key, entry, found, rfl⟩
    simp [tells.entry key entry found]
  · obtain ⟨n, stands⟩ := Option.ne_none_iff_exists'.mp stands
    exact tells.present h n stands
  · intro key entry key' entry' found found' same
    have stands := tells.entry key entry found
    rw [same] at stands
    exact placed.key_eq found found' (standing_injective stands (tells.entry key' entry' found'))
  · have at_generation :=
      registrantAt_of_latest (latest_of_standing (tells.entry key entry found))
    rw [UInt64.le_iff_toNat_le, counter]
    exact registrantAt_le at_generation

theorem Reached.handlerCount {w : World} (reached : w.Reached) {d : DispatcherId}
    (kept : w.keeps d = true) (bound : inserts d w.history < 2 ^ 64) :
    (w.dispatcher d).handlerCount = {h | standing d h w.history ≠ none}.ncard := by
  have refines := reached.refines kept bound
  have placed := reached.placed
  have members : {h | standing d h w.history ≠ none} =
      ((w.registry d).entries.entries.map (·.2.handler)).toFinset := by
    ext h
    simp only [Set.mem_ofPred_eq, List.coe_toFinset, List.mem_map]
    rw [← refines.entry_iff]
    constructor
    · rintro ⟨key, entry, found, rfl⟩
      exact ⟨(key, entry), Roster.mem_of_lookup found, rfl⟩
    · rintro ⟨⟨key, entry⟩, member, rfl⟩
      exact ⟨key, entry, (Roster.find?_eq_some_iff (placed.distinct d) key entry).mpr member, rfl⟩
  rw [members, Set.ncard_coe_finset, List.toFinset_card_of_nodup (placed.handlers_nodup d),
    List.length_map]
  rfl

theorem Reached.isEmpty_iff {w : World} (reached : w.Reached) {d : DispatcherId}
    (kept : w.keeps d = true) (bound : inserts d w.history < 2 ^ 64) :
    (w.dispatcher d).isEmpty = true ↔ ∀ h, standing d h w.history = none := by
  have refines := reached.refines kept bound
  have no_entries : (w.dispatcher d).isEmpty = true ↔ (w.registry d).entries.entries = [] := by
    simp only [Dispatcher.isEmpty, Dispatcher.handlerCount, Registry.size, Roster.size,
      List.length_eq_zero_iff, decide_eq_true_eq]
    rfl
  rw [no_entries]
  constructor
  · intro empty h
    by_contra stands
    obtain ⟨key, entry, found, -⟩ := (refines.entry_iff h).mpr stands
    have member := Roster.mem_of_lookup found
    rw [empty] at member
    cases member
  · intro nobody
    apply List.eq_nil_iff_forall_not_mem.mpr
    rintro ⟨key, entry⟩ member
    have found := (Roster.find?_eq_some_iff (reached.placed.distinct d) key entry).mpr member
    exact (refines.entry_iff _).mp ⟨key, entry, found, rfl⟩ (nobody _)

/-- A weak handle that is refused leaves everything as it was. -/
theorem registerWeak_refused {w : World} {d : DispatcherId} {handle : Option HandlerId}
    {error : DispatchError} (refused : (w.registerWeak d handle).2 = .error error) :
    (w.registerWeak d handle).1 = w := by
  cases living : w.handleAlive handle with
  | false => rw [registerWeak_of_dead living]
  | true =>
    cases handle with
    | none => cases living
    | some h =>
      rw [registerWeak_of_alive living] at refused
      cases refused

/-- The registry of the dispatcher shows what was done to it. -/
structure Reflects (w : World) (d : DispatcherId) (ops : List Operation) : Prop where
  registry : (w.registry d).Refines (Operation.standing · ops) (Operation.inserts ops)
  handlerCount : (w.dispatcher d).handlerCount = {h | Operation.standing h ops ≠ none}.ncard
  isEmpty_iff : (w.dispatcher d).isEmpty = true ↔ ∀ h, Operation.standing h ops = none
  recalls : w.Recalls d ops

theorem Reached.reflects {w : World} (reached : w.Reached) {d : DispatcherId}
    (kept : w.keeps d = true) {ops : List Operation} (recalls : w.Recalls d ops)
    (bound : Operation.inserts ops < 2 ^ 64) : w.Reflects d ops := by
  have counted := recalls.reads.inserts
  have same : (standing d · w.history) = (Operation.standing · ops) :=
    funext recalls.reads.standing
  rw [← counted] at bound
  refine ⟨?_, ?_, ?_, recalls⟩
  · rw [← same, ← counted]
    exact reached.refines kept bound
  · simp only [← recalls.reads.standing]
    exact reached.handlerCount kept bound
  · simp only [← recalls.reads.standing]
    exact reached.isEmpty_iff kept bound

/-- A weak handle is accepted, and its handler registered, or nothing is done. -/
theorem perform_registerWeak (w : World) (name : Option String) (handle : Option Handle) :
    (∃ d h, w.operation? d (.registerWeak name handle) = some (.register h) ∧
      w.perform (.registerWeak name handle) = (w.register d h, .done)) ∨
    (∀ d, w.operation? d (.registerWeak name handle) = none) ∧
      (w.perform (.registerWeak name handle)).2 ≠ .done ∧
      (w.perform (.registerWeak name handle)).1 = w := by
  cases tried : w.attempt (.registerWeak name handle) with
  | error refusal => exact .inr ⟨operation?_of_refused tried, by simp [perform, tried]⟩
  | ok result =>
    obtain ⟨e, called, done⟩ := bind_eq_ok tried
    obtain ⟨handler, shown, done⟩ := bind_eq_ok done
    cases done
    have performed : w.perform (.registerWeak name handle) = ((w.registerWeak e handler).1,
        .ofExcept (fun _ => .done) (w.registerWeak e handler).2) := by
      rw [perform, tried]
    have op : ∀ d, w.operation? d (.registerWeak name handle) =
        if e = d then (handler.filter w.alive).map .register else none := by
      intro d
      simp only [operation?, calls_eq called, shown?_eq shown, decide_eq_true_eq]
    cases living : w.handleAlive handler with
    | false =>
      have nobody : handler.filter w.alive = none := by
        cases handler <;> simp_all [handleAlive]
      rw [registerWeak_of_dead living] at performed
      exact .inr ⟨by simp [op, nobody], by simp [performed, Answer.ofExcept], by rw [performed]⟩
    | true =>
      cases handler with
      | none => cases living
      | some h =>
        have alive : w.alive h = true := living
        rw [registerWeak_of_alive alive] at performed
        exact .inl ⟨e, h, by simp [op, alive], performed⟩

end World

/-- In every run, the registry of a dispatcher that is still kept is what was done to it, as long as
it handed out fewer generations than there are. A weak handle that is not accepted does nothing. -/
theorem registry_refines_operations (arity : Arity) (blueprints : List Blueprint)
    (moves : List Move) (d : DispatcherId)
    (kept : ((Machine.idle arity blueprints).run moves).world.keeps d = true)
    (bound : Operation.inserts ((Machine.idle arity blueprints).operations d moves) < 2 ^ 64) :
    let w := ((Machine.idle arity blueprints).run moves).world
    w.Reflects d ((Machine.idle arity blueprints).operations d moves) ∧
    ∀ name handle, let action := .registerWeak name handle
      (∃ e h, w.operation? e action = some (.register h) ∧
        w.perform action = (w.register e h, .done)) ∨
      (∀ e, w.operation? e action = none) ∧ (w.perform action).2 ≠ .done ∧
        (w.perform action).1 = w := by
  intro w
  have reached : w.Reached := Machine.run_reached arity blueprints moves
  have recalls := Machine.recalls_run (Machine.steady_idle arity blueprints)
    (Machine.recalls_idle arity blueprints d) (by rwa [List.append_nil])
  rw [List.append_nil] at recalls
  exact ⟨reached.reflects kept recalls bound, w.perform_registerWeak⟩

def lettingGo : Blueprint := { scripts := [[.act (.dropGuard (some "g")) false]] }

/-- Handlers are registered by strong and by weak references, unregistered by both, and replaced
under a guard. Two weak handles are not accepted, one guard is let go too late, and the name of
another is given out anew. One dead handler is purged on demand, and another by a pass, in which a
handler acts. -/
def mixedMoves : List Move :=
  [.act (.createDispatcher (some "d") .usual), .act (.createHandler (some "a") 1 none),
    .act (.createHandler (some "b") 0 none), .act (.createHandler (some "c") 0 none),
    .act (.createHandler (some "x") 0 none), .act (.createHandler (some "y") 0 none),
    .act (.register (some "d") (some "a")), .act (.registerWeak (some "d") (some (.of "b"))),
    .act (.registerWeak (some "d") (some .empty)),
    .act (.subscribe (some "g") (some "d") (some "c")), .act (.unregister (some "d") (some "a")),
    .act (.unregisterWeak (some "d") (some (.of "b"))),
    .act (.registerWeak (some "d") (some (.of "a"))),
    .act (.subscribe (some "k") (some "d") (some "b")), .act (.register (some "d") (some "b")),
    .act (.dropGuard (some "k")), .act (.unsubscribe (some "g")),
    .act (.subscribe (some "g") (some "d") (some "c")), .act (.register (some "d") (some "x")),
    .act (.drop (some "x")), .act (.registerWeak (some "d") (some (.of "x"))),
    .act (.purge (some "d")), .act (.unregisterWeak (some "d") (some (.of "x"))),
    .act (.registerWeak (some "d") (some (.of "y"))), .act (.drop (some "y")),
    .reorder 0 [(.place 1, ⟨"a", 4⟩), (.place 5, ⟨"y", 9⟩), (.place 3, ⟨"c", 7⟩),
      (.place 2, ⟨"b", 6⟩)],
    .start { dispatcher := some "d" }, .poll 0, .tick, .tick, .tick, .tick]

/-- Of the handlers registered nine times, two are left, by the fourth and the sixth of the
registrations. -/
theorem registry_refines_operations_mixed :
    let m := Machine.idle .simple [{}, lettingGo]
    let w := (m.run mixedMoves).world
    let ops := m.operations 0 mixedMoves
    (w.keeps 0 = true ∧ Operation.inserts ops < 2 ^ 64) ∧
    ops = [.release "g", .sweep ["x", "y"], .register "y", .unregister "x", .sweep ["x"],
      .register "x", .subscribe "g" "c", .release "g", .release "k", .register "b",
      .subscribe "k" "b", .register "a", .unregister "b", .unregister "a", .subscribe "g" "c",
      .register "b", .register "a"] ∧
    ["a", "b", "c", "x", "y"].map (Operation.standing · ops) =
      [some 4, some 6, none, none, none] ∧
    w.Reflects 0 ops ∧
    ∀ name handle, let action := .registerWeak name handle
      (∃ e h, w.operation? e action = some (.register h) ∧
        w.perform action = (w.register e h, .done)) ∨
      (∀ e, w.operation? e action = none) ∧ (w.perform action).2 ≠ .done ∧
        (w.perform action).1 = w := by
  intro m w ops
  have given : w.keeps 0 = true ∧ Operation.inserts ops < 2 ^ 64 := by decide +kernel
  exact ⟨given, by decide +kernel, by decide +kernel,
    registry_refines_operations .simple [{}, lettingGo] mixedMoves 0 given.1 given.2⟩

end Fanout
