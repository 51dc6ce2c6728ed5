import Fanout.Proofs.OneWay
import Fanout.Proofs.Undisturbed

/-! Snapshots and purges of the registries that runs come to. In whatever order a party comes to the
entries, its snapshot shows who is alive, and its purge takes out the others; and whatever happens
between the two, nobody who has an entry and is dead comes back. -/
namespace Fanout
namespace Traffic
open World

/-- What runs do is traffic that may come about. -/
theorem reached_of_run (arity : Arity) (blueprints : List Blueprint) (moves : List Move) :
    Traffic.Reached ⟨((Machine.idle arity blueprints).run moves).world, []⟩ :=
  ⟨arity, blueprints,
    leads_of_leads (Machine.run_steady (Machine.steady_idle arity blueprints) moves).1⟩

theorem Reached.mortal {t t' : Traffic} (reached : t.Reached) (leads : t.Leads t')
    (d : DispatcherId) : (t.world.registry d).Mortal t.world.alive t'.world.alive := by
  rintro h ⟨key, entry, at_key, rfl⟩ lives
  have orderly := reached.orderly
  obtain ⟨handler, found, -⟩ := orderly.placed.at_home d key entry at_key
  rw [World.alive, found]
  by_contra dead
  have gone : .reclaimed entry.handler ∈ t.world.history := by
    by_contra not_gone
    exact dead ((orderly.balanced.alive_iff found).mpr not_gone)
  rw [(leads.forsakes orderly gone).1] at lives
  cases lives

theorem shows_of_order {w : World} {d : DispatcherId} {order : List (Key × Registration)}
    (proper : (w.registry d).Proper) (all : order.Perm (w.registry d).entries.entries) :
    (w.registry d).Shows w.alive ⟨w.livingOf order, w.deadOf order⟩ := by
  refine (proper.shows w.alive).of_perm ?_ ?_
  · rw [Registry.live_snapshot]
    exact (all.filter _).map _
  · rw [Registry.dead_snapshot]
    exact (all.filter _).length_eq

end Traffic

/-- A snapshot of a registry shows each living handler once, and a purge takes out all other entries
and leaves those of the handlers shown as they are, in whatever order either comes to the entries.
Where handlers have died since the snapshot, and none ever comes back, the purge takes out those as
well, and nobody else. -/
theorem snapshot_and_purge_agree (t : Traffic) (reached : t.Reached) (d : DispatcherId) :
    let w := t.world
    let registry := w.registry d
    (∀ alive, registry.Shows alive (registry.snapshot alive)) ∧
    (∀ alive found, registry.Shows alive found →
      registry.Agrees alive found (registry.purge alive).1 (registry.purge alive).2 ∧
      ∀ later, registry.Mortal alive later →
        registry.Clears later found (registry.purge later).1 (registry.purge later).2) ∧
    (∀ t', t.Leads t' → registry.Mortal w.alive t'.world.alive) ∧
    ∀ order, order.Perm registry.entries.entries →
      (∀ p, ∃ walk : Walk,
        Traffic.goThrough ⟨w, w.setOut d (.snapshot p) :: t.walks⟩ order =
          ⟨w.retainAll walk.found.live, walk :: t.walks⟩ ∧
        walk.ahead = [] ∧ registry.Shows w.alive walk.found) ∧
      ∀ purpose, (∀ p, purpose ≠ .snapshot p) → ∃ walk : Walk,
        Traffic.goThrough ⟨w, w.setOut d purpose :: t.walks⟩ order =
          ⟨w.setRegistry d (registry.purge w.alive).2, walk :: t.walks⟩ ∧
        walk.ahead = [] ∧ walk.purged = (registry.purge w.alive).1 := by
  intro w registry
  have proper : registry.Proper := reached.orderly.placed.proper d
  refine ⟨proper.shows, fun alive found shows => ⟨proper.agrees shows, fun later =>
    proper.clears shows⟩, fun t' leads => reached.mortal leads d, fun order all => ⟨fun p => ?_,
    fun purpose purging => ?_⟩⟩
  · obtain ⟨behind, through⟩ := Traffic.snapshot_through proper.keys all t.walks p
    exact ⟨{ w.setOut d (.snapshot p) with
      ahead := [], behind, found := ⟨w.livingOf order, w.deadOf order⟩ },
      through, rfl, Traffic.shows_of_order proper all⟩
  · obtain ⟨behind, through⟩ := Traffic.sweep_through proper.keys all (w.setOut d purpose) t.walks
      rfl purging rfl rfl
    exact ⟨{ w.setOut d purpose with
      ahead := [], behind, purged := (registry.purge w.alive).1 }, through, rfl, rfl⟩

def dyingMoves : List Move :=
  [.act (.createDispatcher (some "d") .usual), .act (.createHandler (some "a") 0 none),
    .act (.createHandler (some "b") 0 none), .act (.createHandler (some "c") 0 none),
    .act (.register (some "d") (some "a")), .act (.register (some "d") (some "b")),
    .act (.register (some "d") (some "c")), .act (.drop (some "a"))]

/-- A snapshot in any order shows the other two, and a purge would take out one entry; but when the
second handler has died as well, it takes out two, and leaves the third as it was. -/
theorem snapshot_and_purge_agree_dying :
    let t : Traffic := ⟨((Machine.idle .simple [{}]).run dyingMoves).world, []⟩
    let later := (t.run [.act (.drop (some "b"))]).world.alive
    let registry := t.world.registry 0
    let order := registry.entries.entries.reverse
    t.Reached ∧
    (∃ walk : Walk, Traffic.goThrough ⟨t.world, [t.world.setOut 0 (.snapshot 0)]⟩ order =
        ⟨t.world.retainAll walk.found.live, [walk]⟩ ∧
      walk.found.live.Perm ["b", "c"] ∧ walk.found.dead = 1 ∧
      registry.Agrees t.world.alive walk.found 1 (registry.purge t.world.alive).2 ∧
      registry.Clears later walk.found 2 (registry.purge later).2) ∧
    (registry.purge t.world.alive).2.find? (.place 2) = some ⟨"b", 2⟩ ∧
    (registry.purge later).2.find? (.place 3) = some ⟨"c", 3⟩ := by
  intro t later registry order
  have reached : t.Reached := Traffic.reached_of_run .simple [{}] dyingMoves
  obtain ⟨shows, purges, mortal, orders⟩ := snapshot_and_purge_agree t reached 0
  have at_once : registry.snapshot t.world.alive = ⟨["b", "c"], 1⟩ := by decide +kernel
  have dies := mortal _ (t.run_leads [.act (.drop (some "b"))])
  obtain ⟨walk, through, -, shown⟩ := (orders order (List.reverse_perm _)).1 0
  have agrees := (purges _ _ shown).1
  have clears := (purges _ _ shown).2 _ dies
  have one : (registry.purge t.world.alive).1 = 1 := by decide +kernel
  have two : (registry.purge later).1 = 2 := by decide +kernel
  rw [one] at agrees
  refine ⟨reached, ⟨walk, through, ?_, ?_, agrees, ?_⟩, ?_, ?_⟩
  · have perm := shown.perm (shows t.world.alive)
    rwa [at_once] at perm
  · exact agrees.purged.symm
  · exact two ▸ clears
  · exact agrees.clears.spared (.place 2) ⟨"b", 2⟩ (by decide +kernel) (by decide +kernel)
  · exact clears.spared (.place 3) ⟨"c", 3⟩ (by decide +kernel) (by decide +kernel)

end Fanout
