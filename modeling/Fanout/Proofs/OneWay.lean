import Fanout.Proofs.Footprint
import Fanout.Proofs.Lifetime
import Fanout.Proofs.Residence
import Fanout.Proofs.Traffic

/-! One way only: from living to dead, and from dead to absent. A handler that was reclaimed never
lives again, in no order of the steps that parties take. What stands in a registry of a living
handler goes only if somebody means it to; what stands there of a dead one stays as it is or goes,
and does not come back. -/
namespace Fanout

/-- The entry is taken out by a weak handle, or by its own guard, which was active. -/
inductive World.Withdraws (w : World) (d : DispatcherId) (key : Key) (entry : Registration) :
    World → Prop
  | unregisterWeak {handler : Handler} (found : w.handlers.find? entry.handler = some handler)
      (watched : handler.watched = true) :
      Withdraws w d key entry (w.unregisterWeak d (some entry.handler)).1
  | release {name : String} {guard : Guard} (found : w.guards.find? name = some guard)
      (own : guard = ⟨some d, key, entry.generation⟩) (active : w.isActive guard = true) :
      Withdraws w d key entry { w.dropGuard guard with guards := w.guards.erase name }

/-- The registry is purged at once, on demand or by the first poll of a pass; or a party that purges
it comes to one of its keys. -/
inductive Traffic.Purges (t : Traffic) (d : DispatcherId) : World → Prop
  | purge (named : t.world.Named d) : Purges t d (t.world.purge d none).1
  | openPass {p : PassId} {pass : Pass} (found : t.world.passes[p]? = some pass)
      (fresh : pass.phase = .fresh) (belongs : pass.dispatcher = d) :
      Purges t d (t.world.openPass p pass).1
  | visit {walk : Walk} (member : walk ∈ t.walks) (belongs : walk.dispatcher = d)
      (purging : ∀ p, walk.purpose ≠ .snapshot p) (key : Key) :
      Purges t d (t.world.visit walk key).1

/-- What may become of an entry in one step. -/
inductive Traffic.Fate (t : Traffic) (d : DispatcherId) (key : Key) (entry : Registration)
    (w : World) : Prop
  | stays (same : (w.registry d).find? key = some entry)
  | renewed (alive : t.world.alive entry.handler = true)
      (again : (w.registry d).find? key =
        some ⟨entry.handler, (t.world.registry d).counter + 1⟩)
  | unregistered {handler : Handler} (found : t.world.handlers.find? entry.handler = some handler)
      (owned : handler.owned ≠ 0) (after : w = (t.world.unregister d entry.handler).1)
      (gone : (w.registry d).find? key = none)
  | withdrawn (withdraws : t.world.Withdraws d key entry w)
      (gone : (w.registry d).find? key = none)
  | purged (dead : t.world.alive entry.handler = false) (purges : t.Purges d w)
      (gone : (w.registry d).find? key = none)

namespace Traffic
open World
variable {t : Traffic} {d : DispatcherId} {key : Key} {entry : Registration}

theorem fate_of_dispatchers {w : World} (at_key : (t.world.registry d).find? key = some entry)
    (same : w.dispatchers = t.world.dispatchers) : t.Fate d key entry w :=
  .stays ((registry_of_dispatchers same d).symm ▸ at_key)

section
variable (h : Orderly t.world t.walks) (at_key : (t.world.registry d).find? key = some entry)
include h at_key

/-- A purge takes out the entry if its handler is dead. -/
theorem fate_of_purge {w : World} {e : DispatcherId} (purges : t.Purges e w)
    (after : w.registry d = if e = d then ((t.world.registry e).purge t.world.alive).2
      else t.world.registry d) : t.Fate d key entry w := by
  by_cases same : e = d
  · subst same
    have left : (w.registry e).find? key =
        ((t.world.registry e).find? key).filter fun x => t.world.alive x.handler := by
      rw [after, if_pos rfl]
      exact Roster.find?_filter (h.placed.distinct e) (fun x => t.world.alive x.2.handler) key
    rw [at_key, Option.filter_some] at left
    cases alive : t.world.alive entry.handler with
    | true =>
      rw [if_pos alive] at left
      exact .stays left
    | false =>
      rw [if_neg (by rw [alive]; exact Bool.false_ne_true)] at left
      exact .purged alive purges left
  · rw [if_neg same] at after
    exact .stays (after ▸ at_key)

/-- A registration writes no entry but that of its handler. -/
theorem fate_of_insert {w : World} {e : DispatcherId} {x : HandlerId} {handler : Handler}
    (named : t.world.Named e) (found : t.world.handlers.find? x = some handler)
    (alive : handler.alive = true)
    (after : w.dispatchers = (t.world.insert e x).2.dispatchers) : t.Fate d key entry w := by
  have reserved := (isReserved_iff t.world x handler).mpr (.inl alive)
  have kept := keeps_of_named named
  have written : w.registry d =
      (t.world.setRegistry e ((t.world.registry e).insert (t.world.keyOf x) x).2).registry d :=
    registry_of_dispatchers after d
  by_cases own : e = d ∧ entry.handler = x
  · obtain ⟨rfl, rfl⟩ := own
    have same_key := (h.placed.own kept found reserved key entry at_key).mp rfl
    have lives : t.world.alive entry.handler = true := by simpa [World.alive, found] using alive
    refine .renewed lives ?_
    rw [written, registry_setRegistry _ (lt_of_entry (Roster.mem_of_lookup at_key)),
      Registry.find?_insert, if_pos same_key.symm]
  · refine .stays ?_
    rw [written]
    refine h.placed.find?_elsewhere kept found reserved (fun other different => ?_) at_key
      fun same_dispatcher same_handler => own ⟨same_dispatcher, same_handler⟩
    rw [Registry.find?_insert, if_neg different]

omit h in
theorem unregisterWeak_of_entry (same_key : key = t.world.keyOf entry.handler) :
    (t.world.unregisterWeak d (some entry.handler)).1 =
      (t.world.unregister d entry.handler).1 := by
  have there : (t.world.registry d).entries.has (t.world.keyOf entry.handler) = true := by
    rw [Roster.has, ← same_key, show (t.world.registry d).entries.find? key = some entry from
      at_key]
    rfl
  simp [World.unregisterWeak, World.unregister, handleKey, Registry.remove, there]

/-- The entry of a handler that is unregistered is gone, and all others stay. -/
theorem fate_of_unregister {e : DispatcherId} {x : HandlerId} {handler : Handler}
    (named : t.world.Named e) (found : t.world.handlers.find? x = some handler)
    (held : handler.owned ≠ 0 ∨ handler.watched = true) :
    t.Fate d key entry (t.world.unregister e x).1 := by
  have reserved : t.world.isReserved x handler = true := by
    rw [isReserved_iff]
    exact held.elim (fun owned => .inl (h.balanced.alive_of_owned found owned))
      fun watched => .inr (.inl watched)
  have kept := keeps_of_named named
  have left : ((t.world.unregister e x).1.registry d).find? key =
      if e = d ∧ t.world.keyOf x = key then none else (t.world.registry d).find? key :=
    find?_takenOut t.world e (t.world.keyOf x) d key
  by_cases own : e = d ∧ t.world.keyOf x = key
  · obtain ⟨rfl, rfl⟩ := own
    have same := (h.placed.own kept found reserved _ entry at_key).mpr rfl
    subst same
    rw [if_pos ⟨rfl, rfl⟩] at left
    rcases held with owned | watched
    · exact .unregistered found owned rfl left
    · rw [← unregisterWeak_of_entry at_key rfl] at left ⊢
      exact .withdrawn (.unregisterWeak found watched) left
  · rw [if_neg own] at left
    exact .stays (left.trans at_key)

omit h in
/-- A guard that is let go takes its own entry with it, and no other. -/
theorem fate_of_dropGuard {name : String} {guard : Guard}
    (found : t.world.guards.find? name = some guard) :
    t.Fate d key entry { t.world.dropGuard guard with guards := t.world.guards.erase name } := by
  have after := registry_dropGuard t.world guard d
  by_cases own : t.world.isActive guard = true ∧ guard.dispatcher = some d ∧
      guard.key = key ∧ guard.generation = entry.generation
  · obtain ⟨active, dispatcher, rfl, generation⟩ := own
    have this : guard = ⟨some d, guard.key, entry.generation⟩ := by
      rw [← dispatcher, ← generation]
    refine .withdrawn (.release found this active) ?_
    show ((t.world.dropGuard guard).registry d).find? guard.key = none
    rw [after, if_pos ⟨active, dispatcher⟩, Registry.find?_removeGeneration, if_pos]
    exact ⟨rfl, by simp [Registry.holds, at_key, generation]⟩
  · refine .stays ?_
    show ((t.world.dropGuard guard).registry d).find? key = some entry
    rw [after]
    split
    · rename_i active
      rw [Registry.find?_removeGeneration, if_neg, at_key]
      rintro ⟨rfl, holds⟩
      refine own ⟨active.1, active.2, rfl, ?_⟩
      simpa [Registry.holds, at_key, eq_comm] using holds
    · exact at_key

theorem fate_of_deed {w : World} (deed : t.world.Deed w) : t.Fate d key entry w := by
  cases deed with
  | createDispatcher settings vacant =>
    refine .stays ?_
    have there := lt_of_entry (Roster.mem_of_lookup at_key)
    simpa [World.registry, dispatcher, List.getElem?_append, there] using at_key
  | clone found owned => exact fate_of_dispatchers at_key (Aside.retain _ _).dispatchers
  | drop found owned => exact fate_of_dispatchers at_key (Aside.release _ _).dispatchers
  | register named found held =>
    exact fate_of_insert h at_key named found (h.balanced.alive_of_held found held) rfl
  | subscribe named found owned vacant =>
    exact fate_of_insert h at_key named found (h.balanced.alive_of_owned found owned) rfl
  | unregister named found held => exact fate_of_unregister h at_key named found held
  | unregisterEmpty e =>
    refine .stays ?_
    rw [setRegistry_remove_nowhere, find?_takenOut, if_neg, at_key]
    rintro ⟨rfl, rfl⟩
    rw [h.placed.find?_nowhere] at at_key
    cases at_key
  | dropGuard found => exact fate_of_dropGuard at_key found
  | @purge e named => exact fate_of_purge h at_key (.purge named) (registry_purge t.world e none d)
  | @arrange e order perm =>
    refine .stays ?_
    by_cases same : e = d
    · subst same
      rw [registry_arrange (lt_of_entry (Roster.mem_of_lookup at_key))]
      exact ((h.placed.distinct e).find?_perm perm key).trans at_key
    · rwa [registry_arrange_of_ne same]
  | _ => exact fate_of_dispatchers at_key rfl

theorem fate_of_progress {w : World} (progress : t.world.Progress w) : t.Fate d key entry w := by
  cases progress with
  | change change =>
    rcases change.deed_or_aside with deed | aside
    · exact fate_of_deed h at_key deed
    · exact fate_of_dispatchers at_key aside.dispatchers
  | @opening p pass found fresh =>
    exact fate_of_purge h at_key (.openPass found fresh rfl) (registry_openPass t.world p pass d)

omit h in
/-- A party that comes to a key takes out no entry but that of a dead handler, and only to purge. -/
theorem fate_of_visit {walk : Walk} (member : walk ∈ t.walks) (at_hand : Key) :
    t.Fate d key entry (t.world.visit walk at_hand).1 := by
  have visits := t.world.visits_visit walk at_hand
  cases result : t.world.visit walk at_hand with
  | mk after next =>
    rw [result] at visits
    cases visits with
    | absent none_there => exact .stays at_key
    | met purpose there alive => exact fate_of_dispatchers at_key (Aside.retain _ _).dispatchers
    | missed purpose there dead => exact .stays at_key
    | spared purging there alive => exact .stays at_key
    | @evicted found purging there dead =>
      have left := find?_takenOut t.world walk.dispatcher at_hand d key
      by_cases own : walk.dispatcher = d ∧ at_hand = key
      · obtain ⟨rfl, rfl⟩ := own
        rw [at_key, Option.some.injEq] at there
        subst there
        have purges := Purges.visit member rfl purging at_hand
        rw [result] at purges
        rw [if_pos ⟨rfl, rfl⟩] at left
        exact .purged dead purges left
      · rw [if_neg own] at left
        exact .stays (left.trans at_key)

/-- Whatever step is taken, an entry has one of these fates. -/
theorem Step.fate {t' : Traffic} (step : t.Step t') : t.Fate d key entry t'.world := by
  cases step with
  | progress progress apart => exact fate_of_progress h at_key progress
  | poll found fresh free => exact .stays at_key
  | demand named => exact .stays at_key
  | visit there reaches => exact fate_of_visit at_key (List.mem_of_getElem? there) _
  | arrive there done =>
    rw [(arrive_perm there).1]
    exact fate_of_dispatchers at_key (dispatchers_arrive _ _)

end

/-- An entry that is there was there before, or is that of a living handler. -/
theorem Step.entry_before {t' : Traffic} (step : t.Step t') (h : Orderly t.world t.walks)
    (at_key : (t'.world.registry d).find? key = some entry) :
    (t.world.registry d).find? key = some entry ∨ t.world.alive entry.handler = true := by
  cases step with
  | progress progress apart =>
    cases progress.tableStep.sight h.placed.there d with
    | kept same history => exact .inl (same ▸ at_key)
    | turned turn after history =>
      rcases turn.entry (h.placed.distinct d) (after ▸ at_key) with
        before | ⟨x, handler, found, held, -, rfl⟩
      · exact .inl before
      · refine .inr ?_
        simpa [World.alive, found] using h.balanced.alive_of_held found held
  | poll found fresh free => exact .inl at_key
  | demand named => exact .inl at_key
  | @visit i walk there at_hand reaches => exact .inl (find?_visit at_key)
  | arrive there done =>
    refine .inl ?_
    rwa [(arrive_perm there).1, registry_of_dispatchers (dispatchers_arrive _ _)] at at_key

end Traffic

namespace World
variable {w w' : World} {x : HandlerId} {p : PassId}

theorem Balanced.dead_of_reclaimed {extra : List HandlerId} (b : w.Balanced extra)
    (gone : .reclaimed x ∈ w.history) : w.alive x = false := by
  cases found : w.handlers.find? x with
  | none => simp [World.alive, found]
  | some handler =>
    have lives := (b.alive_iff found).not.mpr fun silent => silent gone
    simpa [World.alive, found] using lives

/-- What a step tells: a pass is opened with those that its dispatcher's registry shows alive. -/
theorem TableStep.told (step : TableStep w w') : ∃ events, w'.history = events ++ w.history ∧
    ∀ p d live dead, .opened p d live dead ∈ events → live = (w.snapshotOf d).live := by
  have quiet : ∀ {events : List Event}, (∀ d, ∀ e ∈ events, Event.touches d e = false) →
      ∀ {p d live dead}, .opened p d live dead ∉ events := by
    intro events untouched p d live dead member
    have touched := untouched d _ member
    simp [Event.touches] at touched
  cases step with
  | aside aside =>
    obtain ⟨events, later, untouched⟩ := aside.history
    exact ⟨events, later, fun p d live dead member => absurd member (quiet untouched)⟩
  | @turned e events registry guards turn guard_turn aside =>
    obtain ⟨after, later, untouched⟩ := aside.history
    refine ⟨after ++ events, by rw [later, write, List.append_assoc],
      fun p d live dead member => ?_⟩
    rcases List.mem_append.mp member with member | member
    · exact absurd member (quiet untouched)
    · cases turn with
      | insert named found held told => rcases told with rfl | rfl <;> simp at member
      | sweep found fresh belongs swept =>
        rcases List.mem_cons.mp member with same | member
        · cases same
          rfl
        · rcases swept with ⟨rfl, -⟩ | ⟨count, rfl⟩ <;> simp at member
      | _ => simp at member
  | createdDispatcher settings vacant after => exact ⟨[], after ▸ rfl, by simp⟩
  | droppedDispatcher name after => exact ⟨[], after ▸ rfl, by simp⟩
  | createdHandler blueprint wish vacant after => exact ⟨[], after ▸ rfl, by simp⟩

def Uncalled (w : World) (p : PassId) (x : HandlerId) : Prop :=
  ∀ pass, w.passes[p]? = some pass → ∀ call ∈ pass.calls, call.handler ≠ x

theorem PassStep.uncalled {opens : PassId → Prop} (step : PassStep opens w w')
    (late : ¬ opens p) (h : w.Uncalled p x) : w'.Uncalled p x := by
  intro pass found call member
  cases step.sight p with
  | kept same same_begins same_ends => exact h pass (same ▸ found) call member
  | started before after fresh no_calls named caller same_begins same_ends =>
    rw [after, Option.some.injEq] at found
    rw [← found, no_calls] at member
    cases member
  | @turned old new mark before after becomes marks =>
    rw [after, Option.some.injEq] at found
    subst found
    have planned : (call.handler, call.name) ∈ new.plan :=
      List.mem_map_of_mem (f := fun call : Call => (call.handler, call.name)) member
    rw [becomes.same_plan fun allowed => absurd allowed late] at planned
    obtain ⟨call', member', same⟩ := List.mem_map.mp planned
    have same_handler := congrArg Prod.fst same
    exact fun calls => h old before call' member' (same_handler.trans calls)

/-- A pass that is entered gets calls only of the handlers that were found alive. -/
theorem Uncalled.enterPass {q : PassId} {d : DispatcherId} {live : List HandlerId}
    (h : w.Uncalled p x) {pass : Pass} (found : w.passes[q]? = some pass)
    (fresh : pass.phase = .fresh) (absent : q = p → x ∉ live) :
    (w.enterPass q d live).Uncalled p x := by
  by_cases same : q = p
  · subst same
    intro new found_new call member
    cases read : w.readNames live with
    | error payload =>
      rw [passes_enterPass_error found read, getElem?_set_of_some _ found,
        Option.some.injEq] at found_new
      subst found_new
      exact h pass found call member
    | ok names =>
      rw [passes_enterPass_ok found read, getElem?_set_of_some _ found,
        Option.some.injEq] at found_new
      rw [← found_new] at member
      obtain ⟨i, at_position⟩ := List.getElem?_of_mem member
      obtain ⟨y, name, alive, -, rfl⟩ := List.getElem?_zipWith_eq_some.mp at_position
      rintro rfl
      exact absent rfl (List.mem_of_getElem? alive)
  · exact (PassStep.entering found fresh d live).uncalled (Ne.symm same) h

/-- Nothing that is done at once makes a pass call a handler that is dead. -/
theorem Progress.uncalled {w w' : World} {p : PassId} {x : HandlerId} (progress : w.Progress w')
    (dead : w.alive x = false) (h : w.Uncalled p x) : w'.Uncalled p x := by
  cases progress with
  | change change => exact change.passStep.uncalled id h
  | @opening q pass found fresh =>
    rw [openPass_fst]
    have surveyed := passes_survey w q pass.dispatcher
    refine Uncalled.enterPass (w := w.survey q pass.dispatcher) ?_ (surveyed.symm ▸ found) fresh
      fun _ member => ?_
    · intro other found'
      exact h other (surveyed ▸ found')
    · rw [alive_of_mem_live member] at dead
      cases dead

end World

namespace Traffic
open World
variable {t t' : Traffic} {x : HandlerId} {p : PassId}

/-- The pass has no call of the handler, and none is about to be made for it. -/
structure Shuns (t : Traffic) (p : PassId) (x : HandlerId) : Prop where
  uncalled : t.world.Uncalled p x
  unmet : ∀ walk ∈ t.walks, walk.purpose.pass? = some p → x ∉ walk.found.live

/-- A party that comes to a key meets no dead handler there. -/
theorem Shuns.visit (shuns : t.Shuns p x) (dead : t.world.alive x = false) {i : Nat} {walk : Walk}
    (there : t.walks[i]? = some walk) (key : Key) : (t.visit i walk key).Shuns p x := by
  refine ⟨fun pass found => shuns.uncalled pass (passes_visit .. ▸ found), ?_⟩
  intro other member polls met
  rcases List.mem_or_eq_of_mem_set member with old | rfl
  · exact shuns.unmet other old polls met
  · rw [purpose_visit] at polls
    rcases mem_live_visit met with before | alive
    · exact shuns.unmet walk (List.mem_of_getElem? there) polls before
    · rw [alive] at dead
      cases dead

/-- A pass that is opened at the end of a walk calls those who were met on it. -/
theorem Shuns.arrive (shuns : t.Shuns p x) (h : Orderly t.world t.walks) {i : Nat} {walk : Walk}
    (there : t.walks[i]? = some walk) : (t.arrive i walk).Shuns p x := by
  obtain ⟨world, walks⟩ := arrive_perm there
  have member := List.mem_of_getElem? there
  have others : ∀ other ∈ t.walks.eraseIdx i, other.purpose.pass? = some p →
      x ∉ other.found.live := fun other left => shuns.unmet other (List.mem_of_mem_eraseIdx left)
  have arrives := t.world.arrives_arrive walk
  generalize t.world.arrive walk = result at arrives world walks
  cases arrives with
  | @opened q events polls swept =>
    refine ⟨?_, fun other at_hand => others other (walks.mem_iff.mp at_hand)⟩
    obtain ⟨pass, found, fresh, -⟩ := h.fresh walk member q polls
    rw [world]
    refine Uncalled.enterPass (w := t.world.tellOpened walk q events) shuns.uncalled found fresh
      fun same => ?_
    exact shuns.unmet walk member (same ▸ polls)
  | turned purpose =>
    refine ⟨world ▸ shuns.uncalled, fun other at_hand polls => ?_⟩
    rcases List.mem_cons.mp (walks.mem_iff.mp at_hand) with rfl | left
    · exact shuns.unmet walk member (by rw [purpose]; exact polls)
    · exact others other left polls
  | purged purpose =>
    refine ⟨world ▸ shuns.uncalled, fun other at_hand => ?_⟩
    exact others other (walks.mem_iff.mp at_hand)

theorem Step.shuns (step : t.Step t') (h : Orderly t.world t.walks)
    (dead : t.world.alive x = false) (shuns : t.Shuns p x) : t'.Shuns p x := by
  cases step with
  | progress progress apart => exact ⟨progress.uncalled dead shuns.uncalled, shuns.unmet⟩
  | poll found fresh free =>
    exact ⟨shuns.uncalled, List.forall_mem_cons.mpr ⟨by simp [setOut], shuns.unmet⟩⟩
  | demand named =>
    exact ⟨shuns.uncalled, List.forall_mem_cons.mpr ⟨by simp [setOut], shuns.unmet⟩⟩
  | visit there reaches => exact shuns.visit dead there _
  | arrive there done => exact shuns.arrive h there

/-- No step tells that a pass which shuns a dead handler was opened with it. -/
theorem Step.told (step : t.Step t') (dead : t.world.alive x = false) :
    ∃ events, t'.world.history = events ++ t.world.history ∧
      ∀ p, t.Shuns p x → ∀ d live dead, .opened p d live dead ∈ events → x ∉ live := by
  cases step with
  | progress progress apart =>
    obtain ⟨events, grown, opened⟩ := progress.tableStep.told
    refine ⟨events, grown, fun p shuns d live count member met => ?_⟩
    rw [opened p d live count member] at met
    rw [alive_of_mem_live met] at dead
    cases dead
  | poll found fresh free => exact ⟨[], rfl, by simp⟩
  | demand named => exact ⟨[], rfl, by simp⟩
  | visit there reaches => exact ⟨[], history_visit .., by simp⟩
  | @arrive i walk there done =>
    obtain ⟨world, -⟩ := arrive_perm there
    have arrives := t.world.arrives_arrive walk
    generalize t.world.arrive walk = result at arrives world
    cases arrives with
    | @opened q events polls swept =>
      obtain ⟨later, grown, untouched⟩ :=
        (Aside.enterPass (t.world.tellOpened walk q events) q walk.dispatcher
          walk.found.live).history
      refine ⟨later ++ .opened q walk.dispatcher walk.found.live walk.found.dead :: events, ?_,
        fun p shuns d live count member met => ?_⟩
      · rw [world, grown, List.append_assoc]
        rfl
      · rcases List.mem_append.mp member with member | member
        · have touched := untouched d _ member
          simp [Event.touches] at touched
        · rcases List.mem_cons.mp member with same | member
          · cases same
            exact shuns.unmet walk (List.mem_of_getElem? there) polls met
          · obtain ⟨_, same⟩ := swept _ member
            cases same
    | turned purpose => exact ⟨[], world ▸ rfl, by simp⟩
    | purged purpose =>
      exact ⟨[.purged walk.dispatcher none walk.purged], world ▸ rfl, by simp⟩

def Lists (t : Traffic) (d : DispatcherId) (x : HandlerId) : Prop :=
  ∃ key entry, (t.world.registry d).find? key = some entry ∧ entry.handler = x

/-- Nobody has begun to poll the pass, which may not have been started. -/
def Unpolled (t : Traffic) (p : PassId) : Prop :=
  (∀ pass, t.world.passes[p]? = some pass → pass.phase = .fresh) ∧ ¬ t.Opens p

theorem Unpolled.shuns (unpolled : t.Unpolled p) (h : Orderly t.world t.walks) (x : HandlerId) :
    t.Shuns p x where
  uncalled := fun pass found call member => by
    have no_calls := (h.recorded.sound p pass found).fresh_empty (unpolled.1 pass found)
    rw [no_calls] at member
    cases member
  unmet := fun walk member polls => absurd ⟨walk, member, polls⟩ unpolled.2

/-- What is left of a dead handler, from one world to a later one. -/
structure Forsakes (t : Traffic) (x : HandlerId) (t' : Traffic) : Prop where
  lists : ∀ d, t'.Lists d x → t.Lists d x
  shuns : ∀ p, t.Shuns p x → t'.Shuns p x
  told : ∃ events, t'.world.history = events ++ t.world.history ∧
    ∀ p, t.Shuns p x → ∀ d live dead, .opened p d live dead ∈ events → x ∉ live

theorem Forsakes.refl (t : Traffic) (x : HandlerId) : t.Forsakes x t :=
  ⟨fun _ => id, fun _ => id, [], rfl, by simp⟩

theorem Forsakes.trans {t'' : Traffic} (f : t.Forsakes x t') (f' : t'.Forsakes x t'') :
    t.Forsakes x t'' := by
  obtain ⟨events, grown, opened⟩ := f.told
  obtain ⟨events', grown', opened'⟩ := f'.told
  refine ⟨fun d => f.lists d ∘ f'.lists d, fun p => f'.shuns p ∘ f.shuns p, events' ++ events,
    by rw [grown', grown, List.append_assoc], fun p shuns d live dead member => ?_⟩
  rcases List.mem_append.mp member with later | earlier
  · exact opened' p (f.shuns p shuns) d live dead later
  · exact opened p shuns d live dead earlier

theorem Step.forsakes (step : t.Step t') (h : Orderly t.world t.walks)
    (dead : t.world.alive x = false) : t.Forsakes x t' := by
  refine ⟨?_, fun p => step.shuns h dead, step.told dead⟩
  rintro d ⟨key, entry, at_key, rfl⟩
  refine ⟨key, entry, (step.entry_before h at_key).resolve_right ?_, rfl⟩
  rw [dead]
  exact Bool.false_ne_true

/-- A reclaimed handler is dead in every later world, and forsaken. -/
theorem Leads.forsakes (leads : t.Leads t') (h : Orderly t.world t.walks)
    (gone : .reclaimed x ∈ t.world.history) :
    t'.world.alive x = false ∧ t.Forsakes x t' := by
  suffices still : .reclaimed x ∈ t'.world.history ∧ t.Forsakes x t' from
    ⟨(leads.orderly h).balanced.dead_of_reclaimed still.1, still.2⟩
  induction leads with
  | refl => exact ⟨gone, .refl t x⟩
  | tail before step ih =>
    have orderly := Leads.orderly before h
    have forsakes := step.forsakes orderly (orderly.balanced.dead_of_reclaimed ih.1)
    obtain ⟨events, grown, -⟩ := forsakes.told
    exact ⟨grown ▸ List.mem_append_right _ ih.1, ih.2.trans forsakes⟩

/-- The total of a pass counts no handler that it does not call. -/
theorem total_of_uncalled {pass : Pass} (uncalled : ∀ call ∈ pass.calls, call.handler ≠ x)
    {total : Nat} {failures : List Failure}
    (failed : pass.error? = some (.handlersFailed total failures)) :
    total = pass.calls.countP fun call => call.handler ≠ x := by
  have all : (pass.calls.countP fun call => call.handler ≠ x) = pass.calls.length :=
    List.countP_eq_length.mpr fun call member => decide_eq_true (uncalled call member)
  unfold Pass.error? at failed
  split at failed
  · cases failed
  · cases failed
    exact all.symm

/-- No purge, no first poll and no party on its way takes out the entry of a living handler. -/
theorem Purges.spares {w : World} {d e : DispatcherId} {key : Key} {entry : Registration}
    (purges : t.Purges e w) (h : Orderly t.world t.walks)
    (at_key : (t.world.registry d).find? key = some entry)
    (alive : t.world.alive entry.handler = true) : (w.registry d).find? key = some entry := by
  cases purges with
  | purge named => exact h.placed.purge_keeps at_key alive e none
  | openPass found fresh belongs => exact h.placed.openPass_keeps at_key alive _ _
  | @visit walk member belongs purging at_hand =>
    have visits := t.world.visits_visit walk at_hand
    generalize t.world.visit walk at_hand = result at visits
    cases visits with
    | met purpose there lives => exact absurd purpose (purging _)
    | evicted purging there dead =>
      rw [find?_takenOut, if_neg, at_key]
      rintro ⟨rfl, rfl⟩
      rw [at_key, Option.some.injEq] at there
      rw [← there, alive] at dead
      cases dead
    | _ => exact at_key

end Traffic

/-- In no order of the steps of all parties does a reclaimed handler come back, nor an entry of it;
and nobody takes out the entry of a living handler but to unregister it. All that runs do is such
an order of steps. -/
theorem life_goes_one_way :
    (∀ arity blueprints moves later,
      Traffic.Leads ⟨((Machine.idle arity blueprints).run moves).world, []⟩
        ⟨((Machine.idle arity blueprints).run (moves ++ later)).world, []⟩) ∧
    ∀ t : Traffic, t.Reached →
      (∀ t', t.Step t' → ∀ d key entry, (t.world.registry d).find? key = some entry →
        (t.world.alive entry.handler = true →
          (t'.world.registry d).find? key = some entry ∨
          (t'.world.registry d).find? key =
            some ⟨entry.handler, (t.world.registry d).counter + 1⟩ ∨
          (t'.world.registry d).find? key = none ∧
            (t'.world = (t.world.unregister d entry.handler).1 ∨
              t.world.Withdraws d key entry t'.world)) ∧
        (t.world.alive entry.handler = false →
          (t'.world.registry d).find? key = some entry ∨
          (t'.world.registry d).find? key = none ∧
            (t.world.Withdraws d key entry t'.world ∨ t.Purges d t'.world))) ∧
      (∀ e w, t.Purges e w → ∀ d key entry, (t.world.registry d).find? key = some entry →
        t.world.alive entry.handler = true → (w.registry d).find? key = some entry) ∧
      ∀ h, .reclaimed h ∈ t.world.history → ∀ t', t.Leads t' →
        t'.world.alive h = false ∧
        (∀ d, t'.world.registerWeak d (some h) = (t'.world, .error .emptyHandle)) ∧
        (∀ d, t'.Lists d h → t.Lists d h) ∧
        ∃ events, t'.world.history = events ++ t.world.history ∧ ∀ p, t.Unpolled p →
          (∀ d live dead, .opened p d live dead ∈ events → h ∉ live) ∧
          ∀ pass, t'.world.passes[p]? = some pass → (∀ call ∈ pass.calls, call.handler ≠ h) ∧
            ∀ total failures, pass.error? = some (.handlersFailed total failures) →
              total = pass.calls.countP fun call => call.handler ≠ h := by
  refine ⟨fun arity blueprints moves later => ?_, fun t reached => ?_⟩
  · have steady := (Machine.run_steady (Machine.steady_idle arity blueprints) moves).2
    rw [Machine.run_append]
    exact Traffic.leads_of_leads (Machine.run_steady steady later).1
  · have orderly := reached.orderly
    refine ⟨fun t' step d key entry at_key => ?_, fun e w purges d key entry at_key =>
      purges.spares orderly at_key, fun h gone t' leads => ?_⟩
    · constructor
      · intro alive
        cases step.fate orderly at_key with
        | stays same => exact .inl same
        | renewed lives again => exact .inr (.inl again)
        | unregistered found owned after left => exact .inr (.inr ⟨left, .inl after⟩)
        | withdrawn withdraws left => exact .inr (.inr ⟨left, .inr withdraws⟩)
        | purged dead purges left =>
          rw [alive] at dead
          cases dead
      · intro dead
        cases step.fate orderly at_key with
        | stays same => exact .inl same
        | renewed lives again =>
          rw [lives] at dead
          cases dead
        | unregistered found owned after left =>
          have lives := orderly.balanced.alive_of_owned found owned
          simp [World.alive, found, lives] at dead
        | withdrawn withdraws left => exact .inr ⟨left, .inl withdraws⟩
        | purged _ purges left => exact .inr ⟨left, .inr purges⟩
    · obtain ⟨dead, forsakes⟩ := leads.forsakes orderly gone
      obtain ⟨events, grown, opened⟩ := forsakes.told
      refine ⟨dead, fun d => by simp [World.registerWeak, dead], forsakes.lists, events, grown,
        fun p unpolled => ?_⟩
      have shuns := unpolled.shuns orderly h
      refine ⟨opened p shuns, fun pass found => ?_⟩
      have uncalled := (forsakes.shuns p shuns).uncalled pass found
      exact ⟨uncalled, fun total failures => Traffic.total_of_uncalled uncalled⟩

/-- Two passes of a dispatcher with two handlers. -/
def crossingMoves : List Move :=
  [.act (.createDispatcher (some "d") .usual), .act (.createHandler (some "a") 0 none),
    .act (.createHandler (some "b") 0 none), .act (.register (some "d") (some "a")),
    .act (.register (some "d") (some "b")), .start { dispatcher := some "d" },
    .start { dispatcher := some "d" }]

/-- The snapshot of the first pass has come to one of the handlers when the other one dies. -/
def crossing : Traffic :=
  Traffic.run ⟨((Machine.idle .simple [{}]).run crossingMoves).world, []⟩
    [.poll 0, .visit 0 (.place 2), .act (.drop (some "a"))]

def purging : Traffic :=
  crossing.run [.visit 0 (.place 1), .arrive 0, .poll 1, .visit 0 (.place 1), .visit 0 (.place 2)]

def crossed : Traffic :=
  purging.run [.visit 1 (.place 1), .visit 1 (.place 2), .arrive 1, .arrive 0,
    .visit 0 (.place 2), .arrive 0]

/-- The party that is about to do this. -/
def purger : Walk :=
  { dispatcher := 0, purpose := .sweep 0, ahead := [.place 1, .place 2], found := ⟨["b"], 1⟩ }

/-- The entry of the dead handler goes in the purge of the first pass, and it comes back neither
there nor in the second pass. -/
theorem life_goes_one_way_crossed :
    let purged := purging.visit 1 purger (.place 1)
    .reclaimed "a" ∈ crossing.world.history ∧
    (purging.Step purged ∧ (purged.world.registry 0).find? (.place 1) = none ∧
      (purging.world.Withdraws 0 (.place 1) ⟨"a", 1⟩ purged.world ∨
        purging.Purges 0 purged.world) ∧
      (purged.world.registry 0).find? (.place 2) = some ⟨"b", 2⟩) ∧
    crossed.world.alive "a" = false ∧
    crossed.world.registerWeak 0 (some "a") = (crossed.world, .error .emptyHandle) ∧
    (crossed.Lists 0 "a" → crossing.Lists 0 "a") ∧
    (crossed.world.passes[1]?).map Pass.plan = some [("b", "b")] ∧
    ∀ pass, crossed.world.passes[1]? = some pass → ∀ call ∈ pass.calls, call.handler ≠ "a" := by
  intro purged
  obtain ⟨runs, all⟩ := life_goes_one_way
  have reached : crossing.Reached :=
    ⟨.simple, [{}], (runs .simple [{}] [] crossingMoves).trans (Traffic.run_leads _ _)⟩
  have onwards : crossing.Leads purging := Traffic.run_leads _ _
  have to_the_end : crossing.Leads crossed := onwards.trans (Traffic.run_leads _ _)
  have gone : .reclaimed "a" ∈ crossing.world.history := by decide +kernel
  refine ⟨gone, ?_, ?_⟩
  · obtain ⟨fate, spares, -⟩ := all purging (reached.leads onwards)
    have there : purging.walks[1]? = some purger := by decide +kernel
    have step : purging.Step purged := .visit there (.inl (by decide))
    have entry : (purging.world.registry 0).find? (.place 1) = some ⟨"a", 1⟩ := by
      decide +kernel
    have left := ((fate purged step 0 _ _ entry).2 (by decide +kernel)).resolve_left
      (by decide +kernel)
    have purges : purging.Purges 0 purged.world :=
      .visit (List.mem_of_getElem? there) rfl (by simp [purger]) (.place 1)
    exact ⟨step, left.1, left.2,
      spares 0 _ purges 0 (.place 2) ⟨"b", 2⟩ (by decide +kernel) (by decide +kernel)⟩
  · obtain ⟨dead, refused, lists, events, grown, opened⟩ :=
      (all crossing reached).2.2 "a" gone crossed to_the_end
    have unpolled : crossing.Unpolled 1 := by
      refine ⟨fun pass found => ?_, ?_⟩
      · have fresh : (crossing.world.passes[1]?).map Pass.phase = some .fresh := by
          decide +kernel
        rw [found] at fresh
        exact Option.some.inj fresh
      · rintro ⟨walk, member, polls⟩
        have others : ∀ walk ∈ crossing.walks, walk.purpose.pass? ≠ some 1 := by decide +kernel
        exact others walk member polls
    exact ⟨dead, refused 0, lists 0, by decide +kernel,
      fun pass found => ((opened 1 unpolled).2 pass found).1⟩

end Fanout
