import Fanout.Proofs.Fenced
import Fanout.Proofs.Sequel

/-! Parties that are apart: each works on handlers of its own, and lets go guards of its own. A race
between them comes to what they come to when they take turns, but for the generations. -/
namespace Fanout

/-- A race is over once everybody is done who had something to do. -/
theorem World.race_isOver_iff (w : World) (d : DispatcherId) (lists : List (List Task))
    (schedule : List Nat) :
    ((w.race d lists).run Registry.table w schedule).IsOver ↔
      ∀ i < lists.length,
        (((w.race d lists).run Registry.table w schedule).parties i).tasks = [] := by
  refine ⟨fun ended i _ => ended i, fun done i => ?_⟩
  by_cases busy : i < lists.length
  · exact done i busy
  · refine List.eq_nil_iff_forall_not_mem.mpr fun t member => ?_
    have had : t ∈ lists.getD i [] := Race.tasks_run w Registry.table _ i schedule t member
    rw [List.getD_eq_default _ _ (Nat.le_of_not_lt busy)] at had
    exact List.not_mem_nil had

namespace World
variable (w : World) (d : DispatcherId) (own : HandlerId → Prop)

/-- The key is that of one of these handlers. -/
def OwnKey (key : Key) : Prop := ∃ h, own h ∧ w.keyOf h = key

/-- The guard is one that the party makes, or one that was given out for one of these handlers. -/
def OwnGuard (i : Nat) : GuardName → Prop
  | .made id => id.party = i
  | .given name => ∃ guard, w.guard? d (.given name) = some guard ∧ w.OwnKey own guard.key

/-- The task is about one of these handlers; about an empty handle there is nothing to say. -/
def OwnTask (i : Nat) : Task → Prop
  | .register h => own h
  | .registerWeak handle => ∀ h ∈ handle, own h
  | .unregister h => own h
  | .unregisterWeak handle => ∀ h ∈ handle, own h
  | .subscribe h => own h
  | .unsubscribe name => w.OwnGuard d own i name
  | .dropGuard name => w.OwnGuard d own i name

/-- The parties have handlers of their own, which nobody else has, and keep to them. -/
structure Apart (lists : List (List Task)) (own : Nat → HandlerId → Prop) : Prop where
  handlers : ∀ i j h, own i h → own j h → i = j
  there : ∀ i h, own i h →
    ∃ handler, w.handlers.find? h = some handler ∧ w.isReserved h handler = true
  tasks : ∀ i, ∀ task ∈ lists.getD i [], w.OwnTask d (own i) i task

variable {w d} {lists : List (List Task)} {own : Nat → HandlerId → Prop}

theorem Apart.fenced (apart : w.Apart d lists own) (placed : w.Placed) :
    Fenced (fun i => w.OwnKey (own i)) (fun i => w.OwnGuard d (own i) i) := by
  have keys_apart : ∀ i j key, w.OwnKey (own i) key → w.OwnKey (own j) key → i = j := by
    rintro i j key ⟨h, mine, rfl⟩ ⟨h', foreign, same⟩
    obtain ⟨handler, found, reserved⟩ := apart.there i h mine
    obtain ⟨handler', found', reserved'⟩ := apart.there j h' foreign
    simp only [keyOf, found, found', Handler.key, Key.place.injEq] at same
    have one := placed.apart h' h handler' handler found' found reserved' reserved same
    exact apart.handlers i j h mine (one ▸ foreign)
  refine ⟨keys_apart, ?_, ?_, fun i position => rfl⟩
  · rintro i j (name | id) mine foreign
    · obtain ⟨guard, held, own_key⟩ := mine
      obtain ⟨guard', held', own_key'⟩ := foreign
      cases held.symm.trans held'
      exact keys_apart i j _ own_key own_key'
    · exact mine.symm.trans foreign
  · rintro i ⟨h, mine, nowhere⟩
    obtain ⟨handler, found, -⟩ := apart.there i h mine
    simp [keyOf, found, Handler.key] at nowhere

theorem OwnTask.errand {own : HandlerId → Prop} {i : Nat} {task : Task}
    (mine : w.OwnTask d own i task) :
    (task.errand w).Own (w.OwnKey own) (w.OwnGuard d own i) := by
  cases task with
  | register h => exact .insert _ h ⟨h, mine, rfl⟩
  | registerWeak handle =>
    cases handle with
    | none => exact .nothing
    | some h =>
      simp only [Task.errand]
      split
      · exact .insert _ h ⟨h, mine h rfl, rfl⟩
      · exact .nothing
  | unregister h => exact .remove _ ⟨h, mine, rfl⟩
  | unregisterWeak handle =>
    cases handle with
    | none => exact .removeNowhere
    | some h => exact .remove _ ⟨h, mine h rfl, rfl⟩
  | subscribe h => exact .insert _ h ⟨h, mine, rfl⟩
  | unsubscribe name => exact .release name mine
  | dropGuard name => exact .release name mine

theorem Apart.within (apart : w.Apart d lists own) (placed : w.Placed) :
    (w.tracedRace d lists).Within w (fun i => w.OwnKey (own i))
      (fun i => w.OwnGuard d (own i) i) where
  errands i task member := (apart.tasks i task member).errand
  receipts i name receipt mine held := by
    obtain ⟨guard, found, rfl⟩ := Option.map_eq_some_iff.mp held
    cases name with
    | made id => cases found
    | given name =>
      obtain ⟨guard', found', own_key⟩ := mine
      cases found.symm.trans found'
      exact own_key
  nowhere := by
    simp only [tracedRace, placed.find?_nowhere d, Option.map_none]

end World

/-- The race comes to the same as the sequel, but for the generations. -/
structure Race.ComesTo (race : Race Registry UInt64) (d : DispatcherId) (s : Sequel) : Prop where
  answers : ∀ i, (race.parties i).answers = s.answers i
  handlers : ∀ key, (race.table.find? key).map Registration.handler =
    ((s.world.registry d).find? key).map Registration.handler
  count : race.table.size = (s.world.dispatcher d).handlerCount
  /-- The same guards are left, for the same keys, and the same of them are active. -/
  guards : ∀ name, Option.Rel
    (fun receipt guard => receipt.key = guard.key ∧
      race.table.holds receipt.key receipt.stamp = s.world.isActive guard)
    (race.guards name) (s.guards name)

/-- Registries that know handlers under the same keys know as many. -/
theorem size_eq_of_keys {registry registry' : Registry} (distinct : registry.entries.Distinct)
    (distinct' : registry'.entries.Distinct)
    (same : ∀ key, (registry.find? key).isSome = (registry'.find? key).isSome) :
    registry.size = registry'.size := by
  have mem_keys : ∀ {registry : Registry}, registry.entries.Distinct → ∀ key,
      key ∈ registry.entries.keys ↔ (registry.find? key).isSome = true := by
    intro registry distinct key
    rw [Option.isSome_iff_exists]
    simp only [Roster.keys, List.mem_map, Prod.exists, exists_and_right, exists_eq_right,
      Registry.find?, Roster.find?_eq_some_iff distinct]
  have keys : registry.entries.keys.Perm registry'.entries.keys :=
    (List.perm_ext_iff_of_nodup distinct distinct').mpr fun key => by
      rw [mem_keys distinct, mem_keys distinct', same]
  simpa only [Roster.keys, List.length_map, Registry.size, Roster.size] using keys.length_eq

/-- Two races that mirror the same race for a table of origins come to the same. -/
theorem Race.Plays.comesTo {w : World} {d : DispatcherId} {left : Nat → List Task}
    {start : UInt64} {race race' : Race Registry UInt64} {traced traced' : Race Origins Origin}
    {s : Sequel} (plays : race'.Plays w d left s) (mirrors : race.Mirrors start traced)
    (mirrors' : race'.Mirrors start traced') (table : traced.table = traced'.table)
    (guards : traced.guards = traced'.guards) (parties : traced.parties = traced'.parties) :
    race.ComesTo d s := by
  have handlers : ∀ key, (race.table.find? key).map Registration.handler =
      ((s.world.registry d).find? key).map Registration.handler := by
    intro key
    rw [plays.table, mirrors.handlers, mirrors'.handlers, table]
  refine ⟨fun i => ?_, handlers, ?_, fun name => ?_⟩
  · rw [← plays.answers, (mirrors.parties i).answers, (mirrors'.parties i).answers, parties]
  · have distinct : (s.world.registry d).entries.Distinct := plays.table ▸ mirrors'.distinct
    refine size_eq_of_keys mirrors.distinct distinct fun key => ?_
    have same := congrArg Option.isSome (handlers key)
    rwa [Option.isSome_map, Option.isSome_map] at same
  · have guard := mirrors.guards name
    have guard' := mirrors'.guards name
    rw [guards] at guard
    rw [plays.guards] at guard'
    refine rel_of_common guard guard' fun receipt own origin held same same' =>
      ⟨same.1.trans same'.1.symm, ?_⟩
    have active := mirrors.holds_iff same
    rw [table, ← mirrors'.holds_iff same'] at active
    rw [Bool.eq_iff_iff, active, World.isActive, plays.belongs name own held]
    simp only [plays.kept, Bool.true_and, plays.table]
    rfl

/-- Whatever the schedule and the order of turns. Were a generation handed out again, an old guard
could let go a later registration of its handler, and the schedule would decide whether it does. -/
theorem apart_parties_commute (arity : Arity) (blueprints : List Blueprint) (moves : List Move)
    (d : DispatcherId) (lists : List (List Task)) (own : Nat → HandlerId → Prop)
    (schedule order : List Nat) :
    let w := ((Machine.idle arity blueprints).run moves).world
    let race := (w.race d lists).run Registry.table w schedule
    w.keeps d = true → w.Apart d lists own → race.IsOver →
    order.Perm (List.range lists.length) →
    inserts d w.history + race.stamps.length < 2 ^ 64 →
    race.ComesTo d (w.inTurn d lists order) := by
  intro w race kept apart ended turns bound
  have reached : w.Reached := Machine.run_reached arity blueprints moves
  have early : inserts d w.history < 2 ^ 64 := by omega
  have counter := (reached.refines kept early).counter
  have starts := reached.mirrors kept early lists
  have mirrors := starts.run w schedule (by rw [counter]; exact bound)
  have there : d < w.dispatchers.length := reached.lt_of_kept kept
  obtain ⟨schedule', plays⟩ := w.race_inTurn d lists there kept turns
  have paced : (w.race d lists).Paced (w.tracedRace d lists) := ⟨fun _ => rfl, fun _ => rfl, rfl⟩
  have paced_run := paced.run w Registry.table Origins.table schedule
  have paced_turns := paced.run w Registry.table Origins.table schedule'
  obtain ⟨table, guards, parties, stamps⟩ :=
    (apart.within reached.placed).over_unique w (apart.fenced reached.placed)
      (paced_run.isOver ended) (paced_turns.isOver plays.tasks)
  -- both races hand out as many generations, so none comes up again in the other one
  have few : (w.registry d).counter.toNat +
      ((w.race d lists).run Registry.table w schedule').stamps.length < 2 ^ 64 := by
    rw [counter, paced_turns.stamps, ← stamps.length_eq, ← paced_run.stamps]
    exact bound
  exact plays.comesTo mirrors (starts.run w schedule' few) table guards parties

/-- A dispatcher and two handlers, one of them subscribed. -/
def apartMoves : List Move :=
  [.act (.createDispatcher (some "d") .usual), .act (.createHandler (some "a") 0 none),
    .act (.createHandler (some "b") 0 none), .act (.subscribe (some "g") (some "d") (some "b"))]

/-- The first party works on the first handler, the second party on the second one. -/
def apartLists : List (List Task) :=
  [[.subscribe "a", .register "a", .unsubscribe (.made ⟨0, 0⟩)],
    [.registerWeak (some "b"), .dropGuard (.given "g"), .subscribe "b", .unregisterWeak none]]

def apartOwners (i : Nat) (h : HandlerId) : Prop := i = 0 ∧ h = "a" ∨ i = 1 ∧ h = "b"

theorem apartMoves_apart :
    let w := ((Machine.idle .simple [{}]).run apartMoves).world
    w.Apart 0 apartLists apartOwners := by
  intro w
  refine ⟨?_, ?_, ?_⟩
  · rintro i j h (⟨rfl, rfl⟩ | ⟨rfl, rfl⟩) (⟨rfl, same⟩ | ⟨rfl, same⟩)
    · rfl
    · exact absurd same (by decide)
    · exact absurd same (by decide)
    · rfl
  · rintro i h (⟨rfl, rfl⟩ | ⟨rfl, rfl⟩)
    · exact ⟨.ofBlueprint "a" 1 {}, by decide +kernel, by decide +kernel⟩
    · exact ⟨.ofBlueprint "b" 2 {}, by decide +kernel, by decide +kernel⟩
  · have given : w.OwnGuard 0 (apartOwners 1) 1 (.given "g") :=
      ⟨⟨some 0, .place 2, 1⟩, by decide +kernel, "b", .inr ⟨rfl, rfl⟩, by decide +kernel⟩
    have first : ∀ task ∈ apartLists.getD 0 [], w.OwnTask 0 (apartOwners 0) 0 task := by
      simp [apartLists, World.OwnTask, World.OwnGuard, apartOwners]
    have second : ∀ task ∈ apartLists.getD 1 [], w.OwnTask 0 (apartOwners 1) 1 task := by
      simp [apartLists, World.OwnTask, given, apartOwners]
    rintro (_ | _ | i)
    · exact first
    · exact second
    · rintro task ⟨⟩

/-- The parties cut into each other's registrations, or the second one has its turn first: only the
generations are different. -/
theorem apart_parties_commute_turned :
    let w := ((Machine.idle .simple [{}]).run apartMoves).world
    let race := (w.race 0 apartLists).run Registry.table w [0, 1, 0, 0, 1, 1, 0, 0, 1, 1, 1]
    let turned := w.inTurn 0 apartLists [1, 0]
    race.ComesTo 0 turned ∧
      race.table.find? (w.keyOf "a") = some ⟨"a", 4⟩ ∧
      (turned.world.registry 0).find? (w.keyOf "a") = some ⟨"a", 5⟩ ∧
      (race.parties 0).answers = [.nothing, .nothing, .flag false] := by
  intro w race turned
  have ended : race.IsOver := (w.race_isOver_iff 0 apartLists _).mpr (by decide +kernel)
  have commute := apart_parties_commute .simple [{}] apartMoves 0 apartLists apartOwners
    [0, 1, 0, 0, 1, 1, 0, 0, 1, 1, 1] [1, 0] (by decide +kernel) apartMoves_apart ended
    (List.Perm.swap 0 1 []) (by decide +kernel)
  exact ⟨commute, by decide +kernel, by decide +kernel, by decide +kernel⟩

end Fanout
