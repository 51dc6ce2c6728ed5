import Fanout.Proofs.Openings

/-! What the history says about a registry. A handler stands in a registry if the last event that
concerns it is one that registers it, and its generation is the position of that event among all
registrations of the dispatcher. -/
namespace Fanout

def Event.registrant? (d : DispatcherId) : Event → Option HandlerId
  | registered e h _ => if e = d then some h else none
  | subscribed e h _ => if e = d then some h else none
  | _ => none

/-- How many registrations there were, the latest of the events first. -/
def inserts (d : DispatcherId) (events : List Event) : Nat :=
  events.countP fun event => (event.registrant? d).isSome

/-- The position of the handler's latest registration among all registrations of the dispatcher. -/
def latest (d : DispatcherId) (h : HandlerId) : List Event → Option Nat
  | [] => none
  | event :: earlier =>
      if event.registrant? d = some h then some (inserts d earlier + 1) else latest d h earlier

/-- The event removes the handler from the registry: it is unregistered, or the guard of its latest
registration is let go, or the registry is swept after the handler was reclaimed. -/
def Event.removes (d : DispatcherId) (h : HandlerId) (earlier : List Event) : Event → Bool
  | unregistered e x _ => e = d && x = h
  | released e _ generation _ => e = d && latest d h earlier = some generation.toNat
  | purged e none _ => e = d && earlier.contains (reclaimed h)
  | opened _ e _ _ => e = d && earlier.contains (reclaimed h)
  | _ => false

/-- The position of the registration that stands for the handler, if the last event that concerns
it registered it. -/
def standing (d : DispatcherId) (h : HandlerId) : List Event → Option Nat
  | [] => none
  | event :: earlier =>
      if event.registrant? d = some h then some (inserts d earlier + 1)
      else if event.removes d h earlier then none
      else standing d h earlier

/-- The handler of the registration at a position. -/
def registrantAt (d : DispatcherId) (n : Nat) : List Event → Option HandlerId
  | [] => none
  | event :: earlier =>
      if (event.registrant? d).isSome && inserts d earlier + 1 = n then event.registrant? d
      else registrantAt d n earlier

section
variable {d : DispatcherId} {h : HandlerId} {event : Event} {earlier : List Event}

theorem Event.registrant?_of_quiet (quiet : event.touches d = false) :
    event.registrant? d = none := by
  cases event <;> simp_all [touches, registrant?]

theorem Event.removes_of_quiet (quiet : event.touches d = false) :
    event.removes d h earlier = false := by
  cases event with
  | purged e pass count => cases pass <;> simp_all [touches, removes]
  | _ => simp_all [touches, removes]

theorem inserts_append_of_quiet {later : List Event}
    (quiet : ∀ e ∈ later, Event.touches d e = false) (earlier : List Event) :
    inserts d (later ++ earlier) = inserts d earlier := by
  have none : later.countP (fun event => (event.registrant? d).isSome) = 0 :=
    List.countP_eq_zero.mpr fun e he => by simp [Event.registrant?_of_quiet (quiet e he)]
  rw [inserts, List.countP_append, none, Nat.zero_add]
  rfl

theorem latest_append_of_quiet {later : List Event}
    (quiet : ∀ e ∈ later, Event.touches d e = false) (earlier : List Event) :
    latest d h (later ++ earlier) = latest d h earlier := by
  induction later with
  | nil => rfl
  | cons event later ih =>
    have hq := quiet event List.mem_cons_self
    rw [List.cons_append, latest, Event.registrant?_of_quiet hq, if_neg nofun]
    exact ih fun e he => quiet e (List.mem_cons_of_mem _ he)

theorem standing_append_of_quiet {later : List Event}
    (quiet : ∀ e ∈ later, Event.touches d e = false) (earlier : List Event) :
    standing d h (later ++ earlier) = standing d h earlier := by
  induction later with
  | nil => rfl
  | cons event later ih =>
    have hq := quiet event List.mem_cons_self
    rw [List.cons_append, standing, Event.registrant?_of_quiet hq, Event.removes_of_quiet hq]
    simpa using ih fun e he => quiet e (List.mem_cons_of_mem _ he)

theorem latest_of_standing {events : List Event} {n : Nat} (stands : standing d h events = some n) :
    latest d h events = some n := by
  induction events with
  | nil => cases stands
  | cons event earlier ih =>
    unfold standing at stands
    unfold latest
    split at stands
    · rename_i registers
      rwa [if_pos registers]
    · rename_i other
      split at stands
      · cases stands
      · rw [if_neg other]
        exact ih stands

theorem inserts_cons (event : Event) (earlier : List Event) : inserts d (event :: earlier) =
    inserts d earlier + if (event.registrant? d).isSome then 1 else 0 := List.countP_cons

theorem inserts_le_append (later earlier : List Event) :
    inserts d earlier ≤ inserts d (later ++ earlier) := by
  rw [inserts, inserts, List.countP_append]
  exact Nat.le_add_left ..

theorem registrantAt_le {events : List Event} {n : Nat} (at_n : registrantAt d n events = some h) :
    n ≤ inserts d events := by
  induction events with
  | nil => cases at_n
  | cons event earlier ih =>
    unfold registrantAt at at_n
    rw [inserts_cons]
    split at at_n
    · rename_i this
      simp only [Bool.and_eq_true, decide_eq_true_eq] at this
      rw [if_pos this.1]
      exact this.2.ge
    · exact (ih at_n).trans (Nat.le_add_right ..)

theorem registrantAt_append {n : Nat} (at_n : registrantAt d n earlier = some h)
    (later : List Event) : registrantAt d n (later ++ earlier) = some h := by
  induction later with
  | nil => exact at_n
  | cons event later ih =>
    have small := registrantAt_le ih
    have other : inserts d (later ++ earlier) + 1 ≠ n := by omega
    simp only [List.cons_append, registrantAt, other, decide_false, Bool.and_false,
      Bool.false_eq_true, if_false]
    exact ih

theorem registrantAt_of_latest {events : List Event} {n : Nat}
    (last : latest d h events = some n) : registrantAt d n events = some h := by
  induction events with
  | nil => cases last
  | cons event earlier ih =>
    unfold latest at last
    split at last
    · rename_i registers
      cases last
      simp [registrantAt, registers]
    · exact registrantAt_append (ih last) [event]

theorem standing_injective {h' : HandlerId} {events : List Event} {n : Nat}
    (stands : standing d h events = some n) (stands' : standing d h' events = some n) : h = h' := by
  have at_n := registrantAt_of_latest (latest_of_standing stands)
  rw [registrantAt_of_latest (latest_of_standing stands')] at at_n
  exact (Option.some.inj at_n).symm

end

/-- The registry has an entry for exactly those handlers that stand, with the generations of their
registrations. -/
structure Tells (d : DispatcherId) (registry : Registry) (history : List Event) : Prop where
  entry : ∀ key entry, registry.find? key = some entry →
    standing d entry.handler history = some entry.generation.toNat
  present : ∀ h n, standing d h history = some n →
    ∃ key entry, registry.find? key = some entry ∧ entry.handler = h

namespace Tells
variable {d : DispatcherId} {registry registry' : Registry} {history : List Event}

theorem empty (none : inserts d history = 0) : Tells d {} history := by
  refine ⟨fun key entry found => (by cases found), fun h n stands => ?_⟩
  induction history with
  | nil => cases stands
  | cons event earlier ih =>
    rw [inserts_cons] at none
    have no_insert : event.registrant? d = .none := by
      cases registers : event.registrant? d with
      | none => rfl
      | some x => simp [registers] at none
    simp only [standing, no_insert, reduceCtorEq, if_false] at stands
    split at stands
    · cases stands
    · exact ih (by omega) stands

theorem filter (tells : Tells d registry history) {event : Event}
    (no_insert : event.registrant? d = none)
    (left : ∀ key entry, registry'.find? key = some entry ↔
      registry.find? key = some entry ∧ event.removes d entry.handler history = false) :
    Tells d registry' (event :: history) where
  entry key entry found := by
    obtain ⟨before, stays⟩ := (left key entry).mp found
    simp only [standing, no_insert, stays]
    exact tells.entry key entry before
  present h n stands := by
    simp only [standing, no_insert, reduceCtorEq, if_false] at stands
    split at stands
    · cases stands
    · rename_i stays
      obtain ⟨key, entry, before, rfl⟩ := tells.present h n stands
      exact ⟨key, entry, (left key entry).mpr ⟨before, by simpa using stays⟩, rfl⟩

/-- The entries of those handlers go that the event removes. -/
theorem erase (tells : Tells d registry history) {event : Event}
    (no_insert : event.registrant? d = none) {gone : Key → Prop} [DecidablePred gone]
    (left : ∀ key, registry'.find? key = if gone key then none else registry.find? key)
    (own : ∀ key entry, registry.find? key = some entry →
      (gone key ↔ event.removes d entry.handler history = true)) :
    Tells d registry' (event :: history) := by
  refine tells.filter no_insert fun key entry => ?_
  rw [left, ← Bool.not_eq_true]
  split
  · rename_i removed
    simp only [reduceCtorEq, false_iff, not_and, not_not]
    exact fun before => (own key entry before).mp removed
  · rename_i stays
    exact ⟨fun before => ⟨before, stays ∘ (own key entry before).mpr⟩, And.left⟩

theorem congr (tells : Tells d registry history)
    (same : ∀ key, registry'.find? key = registry.find? key) : Tells d registry' history := by
  refine ⟨fun key entry found => tells.entry key entry (same key ▸ found), fun h n stands => ?_⟩
  obtain ⟨key, entry, found, rfl⟩ := tells.present h n stands
  exact ⟨key, entry, (same key).trans found, rfl⟩

theorem quiet (tells : Tells d registry history) {later : List Event}
    (quiet : ∀ e ∈ later, Event.touches d e = false) : Tells d registry (later ++ history) where
  entry key entry found := by
    rw [standing_append_of_quiet quiet]
    exact tells.entry key entry found
  present h n stands := by
    rw [standing_append_of_quiet quiet] at stands
    exact tells.present h n stands

theorem removes_of_registrant {event : Event} {h x : HandlerId}
    (registers : event.registrant? d = some h) : event.removes d x history = false := by
  cases event <;> simp_all [Event.registrant?, Event.removes]

/-- A registration stands under the key of its handler, where no other handler's stood. -/
theorem insert (tells : Tells d registry history) {event : Event} {key : Key} {h : HandlerId}
    (registers : event.registrant? d = some h)
    (counter : (registry.counter + 1).toNat = inserts d history + 1)
    (own : ∀ other entry, registry.find? other = some entry → (entry.handler = h ↔ other = key)) :
    Tells d (registry.insert key h).2 (event :: history) where
  entry other entry found := by
    rw [Registry.find?_insert] at found
    split at found
    · cases found
      rw [standing, if_pos registers, counter]
    · rename_i different
      have not_h : ¬ some h = some entry.handler := fun same =>
        different ((own other entry found).mp (Option.some.inj same).symm).symm
      simp only [standing, registers, not_h, if_false, removes_of_registrant registers,
        Bool.false_eq_true]
      exact tells.entry other entry found
  present x n stands := by
    by_cases same : h = x
    · subst same
      exact ⟨key, ⟨h, registry.counter + 1⟩, by simp [Registry.find?_insert], rfl⟩
    · simp only [standing, registers, Option.some.injEq, same, if_false,
        removes_of_registrant registers, Bool.false_eq_true] at stands
      obtain ⟨other, entry, found, rfl⟩ := tells.present x n stands
      have different : key ≠ other := fun hk =>
        same ((own other entry found).mpr hk.symm).symm
      exact ⟨other, entry, by rw [Registry.find?_insert, if_neg different, found], rfl⟩

end Tells

namespace World

/-- Among the entries of a kept dispatcher, those of a handler are the one under its key. -/
theorem Placed.own {w : World} (placed : w.Placed) {d : DispatcherId} (kept : w.keeps d = true)
    {h : HandlerId} {handler : Handler} (found : w.handlers.find? h = some handler)
    (reserved : w.isReserved h handler = true) (key : Key) (entry : Registration)
    (at_key : (w.registry d).find? key = some entry) :
    entry.handler = h ↔ key = w.keyOf h := by
  have lies := placed.at_home d key entry at_key
  constructor
  · rintro rfl
    exact lies.keyOf.symm
  · rintro rfl
    obtain ⟨other, other_found, same_key⟩ := lies
    have member := Roster.mem_of_lookup at_key
    have other_reserved : w.isReserved entry.handler other = true := by
      refine (isReserved_iff ..).mpr (.inr (.inr ⟨d, lt_of_entry member, kept, _, member, rfl⟩))
    have same_place : other.address = handler.address := by
      simpa [World.keyOf, found, Handler.key] using same_key
    exact placed.apart _ _ other handler other_found found other_reserved reserved same_place

theorem Placed.find?_nowhere {w : World} (placed : w.Placed) (d : DispatcherId) :
    (w.registry d).find? .nowhere = none := by
  cases found : (w.registry d).find? .nowhere with
  | none => rfl
  | some entry =>
    obtain ⟨handler, -, key⟩ := placed.at_home d _ entry found
    cases key

theorem Placed.find?_remove_nowhere {w : World} (placed : w.Placed) (d : DispatcherId)
    (key : Key) : ((w.registry d).remove .nowhere).2.find? key = (w.registry d).find? key := by
  rw [Registry.find?_remove]
  split
  · rename_i nowhere
    rw [← nowhere, placed.find?_nowhere]
  · rfl

theorem Reached.alive_eq {w : World} (reached : w.Reached) {h : HandlerId} {handler : Handler}
    (found : w.handlers.find? h = some handler) :
    w.alive h = !w.history.contains (.reclaimed h) := by
  have alive : w.alive h = handler.alive := by simp [World.alive, found]
  rw [alive, Bool.eq_iff_iff, reached.balanced.alive_iff found]
  simp

theorem Reached.purge_iff {w : World} (reached : w.Reached) (d : DispatcherId) (key : Key)
    (entry : Registration) : ((w.registry d).purge w.alive).2.find? key = some entry ↔
      (w.registry d).find? key = some entry ∧
        w.history.contains (.reclaimed entry.handler) = false := by
  rw [Registry.find?_purge (reached.placed.distinct d)]
  refine and_congr_right fun found => ?_
  obtain ⟨handler, handler_found, -⟩ := reached.placed.at_home d key entry found
  rw [reached.alive_eq handler_found]
  simp

/-- A guard that was not let go knows the handler of its registration by its key. -/
def Guarded (w : World) (d : DispatcherId) : Prop :=
  ∀ name guard, w.guards.find? name = some guard → guard.dispatcher = some d →
    ∃ h, registrantAt d guard.generation.toNat w.history = some h ∧ w.LiesAt h guard.key

/-- A guard that is held was held before, or was just given out, and no other with it. -/
theorem GuardTurn.guard {w : World} {events : List Event} {guards : Roster String Guard}
    (turn : GuardTurn w events guards) {name : String} {guard : Guard}
    (found : guards.find? name = some guard) : w.guards.find? name = some guard ∨
      ∃ d h generation, events = [.subscribed d h generation] ∧
        guard = ⟨some d, w.keyOf h, generation⟩ ∧
        ∀ other ≠ name, guards.find? other = w.guards.find? other := by
  cases turn with
  | same events => exact .inl found
  | given new d h generation =>
    rw [Roster.find?_put] at found
    split at found
    · rename_i same
      subst same
      refine .inr ⟨d, h, generation, rfl, (Option.some.inj found).symm, fun other different => ?_⟩
      rw [Roster.find?_put, if_neg different.symm]
    · exact .inl found
  | dropped events other =>
    rw [Roster.find?_erase] at found
    split at found
    · cases found
    · exact .inl found

theorem TableStep.guard {w w' : World} (step : TableStep w w') {name : String} {guard : Guard}
    (found : w'.guards.find? name = some guard) : w.guards.find? name = some guard ∨
      ∃ d h, guard = ⟨some d, w.keyOf h, (w.registry d).counter + 1⟩ ∧
        w.LiesAt h (w.keyOf h) ∧
        (∀ other ≠ name, w'.guards.find? other = w.guards.find? other) ∧
        ∃ later, w'.history =
          later ++ .subscribed d h ((w.registry d).counter + 1) :: w.history := by
  cases step with
  | aside aside => exact .inl (aside.guards ▸ found)
  | @turned d events registry guards turn guard_turn aside =>
    have written : w'.guards = guards := aside.guards
    rw [written] at found ⊢
    refine (guard_turn.guard found).imp id ?_
    rintro ⟨e, h, generation, rfl, rfl, others⟩
    obtain ⟨later, history, -⟩ := aside.history
    generalize subscribed : [Event.subscribed e h generation] = events at turn history
    cases turn with
    | insert named handler_found held told =>
      rcases told with rfl | rfl
      · cases subscribed
      · cases subscribed
        exact ⟨d, h, rfl, liesAt_of_found handler_found, others, later, history⟩
    | sweep pass_found fresh belongs swept => cases subscribed
    | _ => cases subscribed
  | createdDispatcher settings vacant after =>
    subst after
    exact .inl found
  | droppedDispatcher other after =>
    subst after
    exact .inl found
  | createdHandler blueprint wish vacant after =>
    subst after
    exact .inl found

theorem inserts_append (d : DispatcherId) (later earlier : List Event) :
    inserts d (later ++ earlier) = inserts d later + inserts d earlier := List.countP_append

theorem TableTurn.counter {w : World} {d : DispatcherId} {events : List Event}
    {registry : Registry} (turn : TableTurn w d events registry) :
    registry.counter = (w.registry d).counter ∧ inserts d events = 0 ∨
      registry.counter = (w.registry d).counter + 1 ∧ inserts d events = 1 := by
  have removed : ∀ key, ((w.registry d).remove key).2.counter = (w.registry d).counter := by
    intro key
    unfold Registry.remove
    split <;> rfl
  cases turn with
  | insert named found held told =>
    exact .inr ⟨rfl, by rcases told with rfl | rfl <;> simp [inserts, Event.registrant?]⟩
  | remove named found held => exact .inl ⟨removed _, rfl⟩
  | release found dispatcher kept =>
    refine .inl ⟨?_, rfl⟩
    unfold Registry.removeGeneration
    split <;> rfl
  | purge named => exact .inl ⟨rfl, rfl⟩
  | removeNowhere => exact .inl ⟨removed _, rfl⟩
  | tooLate gone key generation => exact .inl ⟨rfl, rfl⟩
  | nothing => exact .inl ⟨rfl, rfl⟩
  | sweep found fresh belongs swept =>
    rcases swept with ⟨rfl, -⟩ | ⟨count, rfl⟩ <;> exact .inl ⟨rfl, rfl⟩
  | arrange perm => exact .inl ⟨rfl, rfl⟩

/-- The counter of a registry counts its registrations. -/
theorem Reached.counter {w : World} (reached : w.Reached) (d : DispatcherId) :
    (w.registry d).counter.toNat = inserts d w.history % 2 ^ 64 := by
  refine Reached.induction
    (P := fun w => (w.registry d).counter.toNat = inserts d w.history % 2 ^ 64) ?_ ?_ reached
  · intro arity blueprints
    rw [registry_of_le (by simp)]
    rfl
  · intro w w' reached ih progress
    cases progress.tableStep.sight reached.placed.there d with
    | kept same history =>
      obtain ⟨events, later, quiet⟩ := history
      rw [same, later, inserts_append_of_quiet quiet, ih]
    | turned turn after history =>
      obtain ⟨later, history, quiet⟩ := history
      rw [after, history, List.append_assoc, inserts_append_of_quiet quiet, inserts_append]
      rcases turn.counter with ⟨same, none⟩ | ⟨next, one⟩
      · rw [same, none, ih, Nat.zero_add]
      · rw [next, one, UInt64.toNat_add, ih, Nat.add_comm 1]
        exact Nat.mod_add_mod ..

theorem Reached.counter_succ {w : World} (reached : w.Reached) (d : DispatcherId) :
    ((w.registry d).counter + 1).toNat = (inserts d w.history + 1) % 2 ^ 64 := by
  rw [UInt64.toNat_add, reached.counter d]
  exact Nat.mod_add_mod ..

theorem Reached.next_generation {w : World} (reached : w.Reached) {d : DispatcherId}
    (bound : inserts d w.history + 1 < 2 ^ 64) :
    ((w.registry d).counter + 1).toNat = inserts d w.history + 1 := by
  rw [reached.counter_succ, Nat.mod_eq_of_lt bound]

theorem inserts_le_of_step {w w' : World} (step : TableStep w w') (d : DispatcherId) :
    inserts d w.history ≤ inserts d w'.history := by
  obtain ⟨events, later⟩ := step.history
  rw [later]
  exact inserts_le_append events _

theorem Reached.guarded {w : World} (reached : w.Reached) {d : DispatcherId}
    (bound : inserts d w.history < 2 ^ 64) : w.Guarded d := by
  revert bound
  refine Reached.induction (P := fun w => inserts d w.history < 2 ^ 64 → w.Guarded d) ?_ ?_ reached
  · intro arity blueprints _ name guard found
    cases found
  · intro w w' reached ih progress bound name guard found belongs
    have step := progress.tableStep
    rcases step.guard found with old | ⟨e, h, rfl, lies, -, later, history⟩
    · obtain ⟨h, at_generation, lies⟩ :=
        ih ((inserts_le_of_step step d).trans_lt bound) name guard old belongs
      obtain ⟨events, later⟩ := step.history
      exact ⟨h, later ▸ registrantAt_append at_generation events, step.lies lies⟩
    · cases belongs
      have more := inserts_le_append (d := d) later
        (.subscribed d h ((w.registry d).counter + 1) :: w.history)
      rw [← history, inserts_cons] at more
      have next := reached.next_generation (d := d)
        (lt_of_le_of_lt (by simpa [Event.registrant?] using more) bound)
      refine ⟨h, history ▸ registrantAt_append ?_ later, step.lies lies⟩
      simp [registrantAt, Event.registrant?, next]

/-- The entry that a guard stands for is that of the latest registration of its handler. -/
theorem Guarded.released_iff {w : World} {d : DispatcherId} (guarded : w.Guarded d)
    (placed : w.Placed) (tells : Tells d (w.registry d) w.history) {name : String} {guard : Guard}
    (held : w.guards.find? name = some guard) (belongs : guard.dispatcher = some d) {key : Key}
    {entry : Registration} (found : (w.registry d).find? key = some entry) :
    (guard.key = key ∧ (w.registry d).holds guard.key guard.generation = true) ↔
      latest d entry.handler w.history = some guard.generation.toNat := by
  obtain ⟨h, at_generation, lies⟩ := guarded name guard held belongs
  have last := latest_of_standing (tells.entry key entry found)
  rw [last, Option.some.injEq]
  constructor
  · rintro ⟨rfl, holds⟩
    simp only [Registry.holds, found, decide_eq_true_eq] at holds
    rw [holds]
  · intro same
    have owner := registrantAt_of_latest last
    rw [same, at_generation, Option.some.injEq] at owner
    subst owner
    have same_key := lies.keyOf.symm.trans (placed.at_home d key entry found).keyOf
    refine ⟨same_key, ?_⟩
    simp [Registry.holds, same_key, found, UInt64.toNat_inj.mp same]

/-- The count of the dead says nothing about who they are. -/
theorem reclaimed_of_swept {d : DispatcherId} {p : PassId} {events : List Event} {unchanged : Prop}
    (swept : events = [] ∧ unchanged ∨ ∃ count, events = [.purged d (some p) count])
    (history : List Event) (h : HandlerId) :
    (events ++ history).contains (.reclaimed h) = history.contains (.reclaimed h) := by
  rcases swept with ⟨rfl, -⟩ | ⟨count, rfl⟩ <;> simp

theorem TableTurn.tells {w : World} (reached : w.Reached) {d : DispatcherId}
    (kept : w.keeps d = true) {events : List Event} {registry : Registry}
    (turn : TableTurn w d events registry) (bound : inserts d (events ++ w.history) < 2 ^ 64)
    (tells : Tells d (w.registry d) w.history) : Tells d registry (events ++ w.history) := by
  have placed := reached.placed
  cases turn with
  | @insert h handler event named found held told =>
    have registers : event.registrant? d = some h := by
      rcases told with rfl | rfl <;> simp [Event.registrant?]
    have reserved : w.isReserved h handler = true :=
      (isReserved_iff ..).mpr (.inl (reached.balanced.alive_of_held found held))
    have next : inserts d w.history + 1 < 2 ^ 64 := by
      rw [List.singleton_append, inserts_cons, registers] at bound
      simpa using bound
    exact tells.insert registers (reached.next_generation next) (placed.own kept found reserved)
  | @remove h handler named found held =>
    have reserved : w.isReserved h handler = true := by
      refine (isReserved_iff ..).mpr ?_
      rcases held with owned | watched
      · exact .inl (reached.balanced.alive_of_owned found owned)
      · exact .inr (.inl watched)
    refine tells.erase rfl (fun key => Registry.find?_remove ..) fun key entry before => ?_
    simp only [Event.removes, decide_true, Bool.true_and, decide_eq_true_eq]
    exact eq_comm.trans ((placed.own kept found reserved key entry before).symm.trans eq_comm)
  | @release name guard found belongs _ =>
    have small := lt_of_le_of_lt (inserts_le_append (d := d) _ w.history) bound
    refine tells.erase rfl (fun key => Registry.find?_removeGeneration ..) fun key entry before => ?_
    simp only [Event.removes, decide_true, Bool.true_and, decide_eq_true_eq]
    exact (reached.guarded small).released_iff placed tells found belongs before
  | purge named =>
    refine tells.filter rfl fun key entry => ?_
    simpa [Event.removes] using reached.purge_iff d key entry
  | removeNowhere =>
    exact tells.congr fun key => placed.find?_remove_nowhere d key
  | tooLate gone key generation =>
    rw [kept] at gone
    cases gone
  | nothing => exact tells
  | @sweep p pass found fresh belongs events swept =>
    have counted : Tells d (w.registry d) (events ++ w.history) := by
      rcases swept with ⟨rfl, -⟩ | ⟨count, rfl⟩
      · exact tells
      · exact tells.filter rfl fun key entry => by simp [Event.removes]
    refine counted.filter rfl fun key entry => ?_
    rw [Event.removes, reclaimed_of_swept swept]
    simpa using reached.purge_iff d key entry
  | arrange perm => exact tells.congr fun key => (placed.distinct d).find?_perm perm key

theorem Reached.tells {w : World} (reached : w.Reached) {d : DispatcherId}
    (kept : w.keeps d = true) (bound : inserts d w.history < 2 ^ 64) :
    Tells d (w.registry d) w.history := by
  revert kept bound
  refine Reached.induction (P := fun w => w.keeps d = true → inserts d w.history < 2 ^ 64 →
    Tells d (w.registry d) w.history) ?_ ?_ reached
  · intro arity blueprints _ _
    rw [registry_of_le (by simp)]
    exact .empty rfl
  · intro w w' reached ih progress kept' bound
    have step := progress.tableStep
    have there := reached.placed.there
    rcases progress.keeps kept' with kept | new
    · have tells := ih kept ((inserts_le_of_step step d).trans_lt bound)
      cases step.sight there d with
      | kept same history =>
        obtain ⟨events, later, quiet⟩ := history
        rw [same, later]
        exact tells.quiet quiet
      | turned turn after history =>
        obtain ⟨later, history, quiet⟩ := history
        rw [history, List.append_assoc, inserts_append_of_quiet quiet] at bound
        rw [after, history, List.append_assoc]
        exact (turn.tells reached kept bound tells).quiet quiet
    · have empty : w'.registry d = {} := by
        cases step.sight there d with
        | kept same history => exact same.trans (registry_of_le new.ge)
        | turned turn after history =>
          exact after.trans (turn.registry_empty (registry_of_le new.ge) fun named =>
            (there d named).ne new)
      have counter := (reached.leads (.single progress)).counter d
      rw [empty, Nat.mod_eq_of_lt bound] at counter
      rw [empty]
      exact .empty counter.symm

end World
end Fanout
