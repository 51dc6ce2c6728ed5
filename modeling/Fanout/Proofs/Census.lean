import Fanout.Proofs.Roster

/-! Who counts as dead. A snapshot of a registry and a purge of it each have counts of their own, and
agree on whom the registry has lost: what a snapshot leaves out is what a purge takes out, whatever
the order in which the snapshot shows the others. Where handlers have died in between, a purge takes
out those as well, and nobody else. -/
namespace Fanout.Registry

/-- No key stands twice, and no handler has two entries. -/
structure Proper (registry : Registry) : Prop where
  keys : registry.entries.Distinct
  handlers : (registry.entries.entries.map (·.2.handler)).Nodup

/-- The handler has an entry, whether it is alive or not. -/
def Lists (registry : Registry) (h : HandlerId) : Prop :=
  ∃ key entry, registry.find? key = some entry ∧ entry.handler = h

/-- Nobody who has an entry and was dead is alive later. -/
def Mortal (registry : Registry) (alive later : HandlerId → Bool) : Prop :=
  ∀ h, registry.Lists h → later h = true → alive h = true

/-- What a snapshot shows: each living handler that has an entry, once, and how many entries there
are besides. -/
structure Shows (registry : Registry) (alive : HandlerId → Bool) (found : Snapshot) : Prop where
  once : found.live.Nodup
  living : ∀ h, h ∈ found.live ↔ registry.Lists h ∧ alive h = true
  total : found.live.length + found.dead = registry.size

/-- What a purge comes to some time after a snapshot, with those alive who are alive by then. -/
structure Clears (registry : Registry) (later : HandlerId → Bool) (found : Snapshot) (count : Nat)
    (left : Registry) : Prop where
  /-- Those that the snapshot showed dead go, and those that have died since. -/
  purged : count = found.dead + found.live.countP fun h => !later h
  kept : ∀ key entry, left.find? key = some entry ↔
    registry.find? key = some entry ∧ entry.handler ∈ found.live ∧ later entry.handler = true
  spared : ∀ key entry, registry.find? key = some entry → later entry.handler = true →
    left.find? key = some entry
  size : left.size + count = registry.size
  counter : left.counter = registry.counter
  /-- After that there is nothing left to purge, and a snapshot shows nobody dead. -/
  again : left.purge later = (0, left)
  clean : ∀ found', left.Shows later found' → found'.dead = 0

/-- What a purge comes to if nobody has died since the snapshot. -/
structure Agrees (registry : Registry) (alive : HandlerId → Bool) (found : Snapshot) (count : Nat)
    (left : Registry) : Prop where
  purged : count = found.dead
  kept : ∀ key entry, left.find? key = some entry ↔
    registry.find? key = some entry ∧ entry.handler ∈ found.live
  clears : registry.Clears alive found count left

section
variable {registry : Registry} {alive later : HandlerId → Bool} {found found' : Snapshot}

theorem lists_iff (distinct : registry.entries.Distinct) (h : HandlerId) :
    registry.Lists h ↔ ∃ e ∈ registry.entries.entries, e.2.handler = h := by
  constructor
  · rintro ⟨key, entry, at_key, same⟩
    exact ⟨(key, entry), Roster.mem_of_lookup at_key, same⟩
  · rintro ⟨e, member, same⟩
    exact ⟨e.1, e.2, (Roster.find?_eq_some_iff distinct e.1 e.2).mpr member, same⟩

theorem Proper.shows (proper : registry.Proper) (alive : HandlerId → Bool) :
    registry.Shows alive (registry.snapshot alive) := by
  refine ⟨?_, fun h => ?_, ?_⟩
  · rw [live_snapshot]
    exact proper.handlers.sublist (List.filter_sublist.map _)
  · rw [live_snapshot, lists_iff proper.keys]
    simp only [List.mem_map, List.mem_filter]
    constructor
    · rintro ⟨e, ⟨member, lives⟩, rfl⟩
      exact ⟨⟨e, member, rfl⟩, lives⟩
    · rintro ⟨⟨e, member, rfl⟩, lives⟩
      exact ⟨e, ⟨member, lives⟩, rfl⟩
  · rw [live_snapshot, dead_snapshot, List.length_map]
    exact (List.length_eq_length_filter_add _).symm

/-- All snapshots show the same, but for the order. -/
theorem Shows.perm (shows : registry.Shows alive found) (shows' : registry.Shows alive found') :
    found.live.Perm found'.live :=
  (List.perm_ext_iff_of_nodup shows.once shows'.once).mpr fun h =>
    (shows.living h).trans (shows'.living h).symm

theorem Shows.dead_eq (shows : registry.Shows alive found)
    (shows' : registry.Shows alive found') : found.dead = found'.dead := by
  have living := (shows.perm shows').length_eq
  have total := shows.total
  have total' := shows'.total
  omega

theorem Shows.of_perm (shows : registry.Shows alive found) (live : found'.live.Perm found.live)
    (dead : found'.dead = found.dead) : registry.Shows alive found' := by
  refine ⟨live.nodup_iff.mpr shows.once, fun h => live.mem_iff.trans (shows.living h), ?_⟩
  rw [live.length_eq, dead]
  exact shows.total

theorem count_purge (registry : Registry) (alive : HandlerId → Bool) :
    (registry.purge alive).1 =
      (registry.entries.entries.filter fun e => !alive e.2.handler).length := by
  have parts := List.length_eq_length_filter_add (l := registry.entries.entries)
    fun e => alive e.2.handler
  simp only [purge, size, Roster.size]
  omega

theorem find?_purge (distinct : registry.entries.Distinct) (alive : HandlerId → Bool) (key : Key)
    (entry : Registration) : (registry.purge alive).2.find? key = some entry ↔
      registry.find? key = some entry ∧ alive entry.handler = true := by
  have left := Roster.find?_filter distinct (fun e => alive e.2.handler) key
  exact (iff_of_eq (congrArg (· = some entry) left)).trans Option.filter_eq_some_iff

theorem purge_purge (registry : Registry) (alive : HandlerId → Bool) :
    (registry.purge alive).2.purge alive = (0, (registry.purge alive).2) := by
  simp [purge, size, Roster.size, List.filter_filter]

theorem Proper.purge (proper : registry.Proper) (alive : HandlerId → Bool) :
    (registry.purge alive).2.Proper :=
  ⟨proper.keys.filter _, proper.handlers.sublist (List.filter_sublist.map _)⟩

/-- Whoever is dead was dead when the snapshot was taken, or was shown alive. -/
theorem count_purge_later (distinct : registry.entries.Distinct)
    (mortal : registry.Mortal alive later) :
    (registry.purge later).1 = (registry.snapshot alive).dead +
      (registry.snapshot alive).live.countP fun h => !later h := by
  have still_dead : (registry.entries.entries.filter fun e => !alive e.2.handler).countP
      (fun e => !later e.2.handler) =
        (registry.entries.entries.filter fun e => !alive e.2.handler).length := by
    refine List.countP_eq_length.mpr fun e member => ?_
    obtain ⟨there, dead⟩ := List.mem_filter.mp member
    have lived := mortal e.2.handler ((lists_iff distinct _).mpr ⟨e, there, rfl⟩)
    cases lives : later e.2.handler with
    | false => rfl
    | true => simp [lived lives] at dead
  have parts := List.countP_eq_countP_filter_add registry.entries.entries
    (fun e => !later e.2.handler) fun e => alive e.2.handler
  rw [count_purge, live_snapshot, dead_snapshot, List.countP_map, ← List.countP_eq_length_filter,
    parts, still_dead, Nat.add_comm]
  rfl

theorem Proper.clears (proper : registry.Proper) (shows : registry.Shows alive found)
    (mortal : registry.Mortal alive later) :
    registry.Clears later found (registry.purge later).1 (registry.purge later).2 := by
  have at_once := proper.shows alive
  refine ⟨?_, fun key entry => ?_, fun key entry at_key lives =>
    (find?_purge proper.keys later key entry).mpr ⟨at_key, lives⟩, ?_, rfl, purge_purge _ _,
    fun found' shows' => ?_⟩
  · rw [count_purge_later proper.keys mortal, shows.dead_eq at_once,
      (shows.perm at_once).countP_eq]
  · rw [find?_purge proper.keys]
    refine and_congr_right fun at_key => ?_
    rw [shows.living]
    have listed : registry.Lists entry.handler := ⟨key, entry, at_key, rfl⟩
    exact ⟨fun lives => ⟨⟨listed, mortal _ listed lives⟩, lives⟩, fun h => h.2⟩
  · exact Nat.add_sub_cancel' (List.length_filter_le _ _)
  · rw [shows'.dead_eq ((proper.purge later).shows later), dead_snapshot, ← count_purge,
      purge_purge]

theorem Proper.agrees (proper : registry.Proper) (shows : registry.Shows alive found) :
    registry.Agrees alive found (registry.purge alive).1 (registry.purge alive).2 := by
  have clears := proper.clears shows fun _ _ => id
  have lives : ∀ h ∈ found.live, alive h = true := fun h member =>
    ((shows.living h).mp member).2
  refine ⟨?_, fun key entry => ?_, clears⟩
  · rw [clears.purged, Nat.add_eq_left, List.countP_eq_zero]
    intro h member
    simp [lives h member]
  · rw [clears.kept]
    exact and_congr_right fun _ => and_iff_left_of_imp (lives _)

end

end Fanout.Registry
