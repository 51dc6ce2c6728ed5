import Fanout.Proofs.Replay

/-! Guards of registrations. A guard is active as long as its registry is kept and nothing happened
under its key since it was given out, and what it removes when it is let go is its own registration
and no other. -/
namespace Fanout

/-- Since these earlier events nobody was registered under the key of the handler, nothing was
removed there, and the registry was not swept when the handler had been reclaimed. -/
structure Undisturbed (keyOf : HandlerId → Key) (d : DispatcherId) (h : HandlerId)
    (since earlier : List Event) : Prop where
  no_insert : ∀ event ∈ since, ∀ entry, event.writes? d = some entry →
    keyOf entry.handler ≠ keyOf h
  no_removal : ∀ event ∈ since, event.removesAt keyOf d (keyOf h) = false
  no_purge : ∀ after event before, since = after ++ event :: before → event.sweeps d = true →
    .reclaimed h ∉ before ++ earlier

section
variable {keyOf : HandlerId → Key} {d : DispatcherId} {h : HandlerId} {since earlier : List Event}
  {generation : UInt64}

theorem Event.writes?_subscribed (d : DispatcherId) (h : HandlerId) (generation : UInt64) :
    (subscribed d h generation).writes? d = some ⟨h, generation⟩ := if_pos rfl

theorem entryAt_subscribed :
    entryAt keyOf d (keyOf h) (.subscribed d h generation :: earlier) = some ⟨h, generation⟩ := by
  rw [entryAt_of_writes (Event.writes?_subscribed d h generation), if_pos rfl]

theorem undisturbed_nil : Undisturbed keyOf d h [] earlier :=
  ⟨by simp, by simp, fun after event before split => by simp at split⟩

theorem undisturbed_cons (event : Event) : Undisturbed keyOf d h (event :: since) earlier ↔
    Undisturbed keyOf d h since earlier ∧
      (∀ entry, event.writes? d = some entry → keyOf entry.handler ≠ keyOf h) ∧
      event.removesAt keyOf d (keyOf h) = false ∧
      (event.sweeps d = true → .reclaimed h ∉ since ++ earlier) := by
  constructor
  · rintro ⟨no_insert, no_removal, no_purge⟩
    simp only [List.forall_mem_cons] at no_insert no_removal
    exact ⟨⟨no_insert.2, no_removal.2, fun after event' before split =>
      no_purge (event :: after) event' before (by rw [split, List.cons_append])⟩,
      no_insert.1, no_removal.1, no_purge [] event since rfl⟩
  · rintro ⟨⟨no_insert, no_removal, no_purge⟩, first_insert, first_removal, first_purge⟩
    refine ⟨List.forall_mem_cons.mpr ⟨first_insert, no_insert⟩,
      List.forall_mem_cons.mpr ⟨first_removal, no_removal⟩, fun after event' before split => ?_⟩
    rcases List.cons_eq_append_iff.mp split with ⟨-, same⟩ | ⟨after, rfl, rest⟩
    · obtain ⟨rfl, rfl⟩ := List.cons.inj same
      exact first_purge
    · exact no_purge after event' before rest

theorem Undisturbed.of_append {later : List Event}
    (undisturbed : Undisturbed keyOf d h (later ++ since) earlier) :
    Undisturbed keyOf d h since earlier := by
  induction later with
  | nil => exact undisturbed
  | cons event later ih => exact ih ((undisturbed_cons event).mp undisturbed).1

theorem Undisturbed.entryAt (undisturbed : Undisturbed keyOf d h since earlier)
    (stood : entryAt keyOf d (keyOf h) earlier = some ⟨h, generation⟩) :
    Fanout.entryAt keyOf d (keyOf h) (since ++ earlier) = some ⟨h, generation⟩ := by
  induction since with
  | nil => exact stood
  | cons event since ih =>
    obtain ⟨before, no_insert, no_removal, no_purge⟩ := (undisturbed_cons event).mp undisturbed
    have stands := ih before
    rw [List.cons_append]
    cases writes : event.writes? d with
    | some entry => rw [entryAt_of_writes writes, if_neg (no_insert entry writes), stands]
    | none =>
      cases sweeps : event.sweeps d with
      | false => rw [entryAt_of_keeps writes no_removal sweeps, stands]
      | true =>
        rw [entryAt_of_sweeps sweeps, stands]
        simpa using no_purge sweeps

/-- What stands, and was not written since, was not disturbed. -/
theorem undisturbed_of_entryAt {entry : Registration}
    (stood : entryAt keyOf d (keyOf h) earlier = some ⟨h, generation⟩)
    (not_again : ∀ event ∈ since, event.writes? d ≠ some entry)
    (stands : entryAt keyOf d (keyOf h) (since ++ earlier) = some entry) :
    Undisturbed keyOf d h since earlier := by
  induction since with
  | nil => exact undisturbed_nil
  | cons event since ih =>
    obtain ⟨not_now, not_before⟩ := List.forall_mem_cons.mp not_again
    refine (undisturbed_cons event).mpr ?_
    rw [List.cons_append] at stands
    cases writes : event.writes? d with
    | some new =>
      rw [entryAt_of_writes writes] at stands
      split at stands
      · exact absurd (writes.trans stands) not_now
      · rename_i elsewhere
        have keeps := Event.keeps_of_writes writes keyOf (keyOf h)
        refine ⟨ih not_before stands, ?_, keeps.1, by simp [keeps.2]⟩
        rintro _ ⟨⟩
        exact elsewhere
    | none =>
      cases removes : event.removesAt keyOf d (keyOf h) with
      | true => simp [entryAt, writes, removes] at stands
      | false =>
        cases sweeps : event.sweeps d with
        | false =>
          rw [entryAt_of_keeps writes removes sweeps] at stands
          exact ⟨ih not_before stands, by simp, rfl, by simp⟩
        | true =>
          rw [entryAt_of_sweeps sweeps, Option.filter_eq_some_iff] at stands
          have before := ih not_before stands.1
          -- the entry that stands is that of the handler
          rw [before.entryAt stood, Option.some.injEq] at stands
          obtain ⟨rfl, alive⟩ := stands
          exact ⟨before, by simp, rfl, fun _ => by simpa using alive⟩

end

namespace World

theorem isActive_some (w : World) (d : DispatcherId) (key : Key) (generation : UInt64) :
    w.isActive ⟨some d, key, generation⟩ =
      (w.keeps d && (w.registry d).holds key generation) := rfl

theorem isActive_iff (w : World) (d : DispatcherId) (key : Key) (generation : UInt64) :
    w.isActive ⟨some d, key, generation⟩ = true ↔ w.keeps d = true ∧
      ∃ entry, (w.registry d).find? key = some entry ∧ entry.generation = generation := by
  simp only [isActive, Bool.and_eq_true, Registry.holds]
  refine and_congr_right fun _ => ?_
  cases (w.registry d).find? key <;> simp

/-- Until the generations begin anew, none is given out again. -/
theorem Reached.not_again {w : World} (reached : w.Reached) {d : DispatcherId} {h : HandlerId}
    {generation : UInt64} {since earlier : List Event}
    (made : w.history = since ++ .subscribed d h generation :: earlier)
    (bound : inserts d since < 2 ^ 64) {event : Event} (member : event ∈ since)
    {entry : Registration} (writes : event.writes? d = some entry) :
    entry.generation ≠ generation := by
  obtain ⟨after, before, rfl⟩ := List.append_of_mem member
  have first := (reached.stamped (made ▸ List.suffix_append _ _)
    (Event.writes?_subscribed d h generation)).1
  have told : event :: (before ++ .subscribed d h generation :: earlier) <:+ w.history := by
    rw [made, List.append_assoc]
    exact List.suffix_append _ _
  have again := (reached.stamped told writes).1
  have registers : (Event.subscribed d h generation).registrant? d = some h := by
    simp [Event.registrant?]
  have registers' : event.registrant? d = some entry.handler := by
    rw [Event.registrant?_eq, writes]
    rfl
  simp only [inserts_append, inserts_cons, registers, registers', Option.isSome_some, if_true]
    at again bound
  rintro rfl
  rw [first] at again
  omega

theorem Reached.find?_of_undisturbed {w : World} (reached : w.Reached)
    {keyOf : HandlerId → Key} (keyed : w.KeyedBy keyOf) {d : DispatcherId} {h : HandlerId}
    {generation : UInt64} {since earlier : List Event}
    (made : w.history = since ++ .subscribed d h generation :: earlier)
    (undisturbed : Undisturbed keyOf d h since (.subscribed d h generation :: earlier)) :
    (w.registry d).find? (keyOf h) = some ⟨h, generation⟩ := by
  rw [reached.replays keyed, made]
  exact undisturbed.entryAt entryAt_subscribed

/-- A guard is active while its registration is not disturbed. -/
theorem Reached.isActive_iff_undisturbed {w : World} (reached : w.Reached)
    {keyOf : HandlerId → Key} (keyed : w.KeyedBy keyOf) {d : DispatcherId} {h : HandlerId}
    {generation : UInt64} {since earlier : List Event}
    (made : w.history = since ++ .subscribed d h generation :: earlier)
    (bound : inserts d since < 2 ^ 64) :
    w.isActive ⟨some d, keyOf h, generation⟩ = true ↔ w.keeps d = true ∧
      Undisturbed keyOf d h since (.subscribed d h generation :: earlier) := by
  rw [isActive_iff]
  refine and_congr_right fun _ => ⟨?_, fun undisturbed =>
    ⟨_, reached.find?_of_undisturbed keyed made undisturbed, rfl⟩⟩
  rintro ⟨entry, stands, same⟩
  rw [reached.replays keyed, made] at stands
  refine undisturbed_of_entryAt entryAt_subscribed (fun event member writes => ?_) stands
  exact reached.not_again made bound member writes same

/-- Only one guard of a key is active. -/
theorem eq_of_isActive {w : World} {guard other : Guard}
    (dispatcher : other.dispatcher = guard.dispatcher) (key : other.key = guard.key)
    (active : w.isActive guard = true) (other_active : w.isActive other = true) :
    other = guard := by
  obtain ⟨_ | d, k, generation⟩ := guard
  · cases active
  · obtain ⟨e, l, generation'⟩ := other
    cases dispatcher
    cases key
    obtain ⟨-, entry, found, rfl⟩ := (isActive_iff w d _ _).mp active
    obtain ⟨-, entry', found', rfl⟩ := (isActive_iff w d _ _).mp other_active
    rw [found] at found'
    rw [Option.some.inj found']

theorem TableStep.dispatchers_le {w w' : World} (step : TableStep w w') :
    w.dispatchers.length ≤ w'.dispatchers.length := by
  cases step with
  | aside aside => exact aside.dispatchers ▸ le_refl _
  | turned turn guard_turn aside =>
    rw [aside.dispatchers]
    simp [write, setRegistry]
  | createdDispatcher settings vacant after => simp [after]
  | droppedDispatcher name after => simp [after]
  | createdHandler blueprint wish vacant after => simp [after, createHandler]

/-- A dispatcher that is not kept any more is never kept again. -/
theorem Leads.keeps_of_keeps {w w' : World} (leads : w.Leads w') {d : DispatcherId}
    (there : d < w.dispatchers.length) (kept : w'.keeps d = true) : w.keeps d = true := by
  have back : d < w'.dispatchers.length ∧ (w'.keeps d = true → w.keeps d = true) := by
    clear kept
    induction leads with
    | refl => exact ⟨there, id⟩
    | tail before last ih =>
      obtain ⟨small, earlier⟩ := ih
      exact ⟨small.trans_le last.tableStep.dispatchers_le,
        fun kept => earlier ((last.keeps kept).resolve_right small.ne)⟩
  exact back.2 kept

theorem Leads.history {w w' : World} (leads : w.Leads w') :
    ∃ later, w'.history = later ++ w.history := by
  induction leads with
  | refl => exact ⟨[], rfl⟩
  | tail before last ih =>
    obtain ⟨later, grown⟩ := ih
    obtain ⟨events, history⟩ := last.tableStep.history
    exact ⟨events ++ later, by rw [history, grown, List.append_assoc]⟩

theorem Leads.lies {w w' : World} (leads : w.Leads w') {h : HandlerId} {key : Key}
    (lies : w.LiesAt h key) : w'.LiesAt h key := by
  induction leads with
  | refl => exact lies
  | tail before last ih => exact last.tableStep.lies ih

theorem TableStep.settings {w w' : World} (step : TableStep w w') {d : DispatcherId}
    (there : d < w.dispatchers.length) : w'.settings d = w.settings d := by
  unfold World.settings dispatcher
  cases step with
  | aside aside => rw [aside.dispatchers]
  | @turned e events registry guards turn guard_turn aside =>
    rw [aside.dispatchers]
    simp only [write, setRegistry, List.getElem?_modify]
    split <;> cases w.dispatchers[d]? <;> rfl
  | createdDispatcher settings vacant after => rw [after, List.getElem?_append_left there]
  | droppedDispatcher name after => rw [after]
  | createdHandler blueprint wish vacant after => rw [after]; rfl

/-- The settings of a dispatcher are never changed. -/
theorem Leads.settings {w w' : World} (leads : w.Leads w') {d : DispatcherId}
    (there : d < w.dispatchers.length) : w'.settings d = w.settings d := by
  have both : d < w'.dispatchers.length ∧ w'.settings d = w.settings d := by
    induction leads with
    | refl => exact ⟨there, rfl⟩
    | tail before last ih =>
      have step := last.tableStep
      exact ⟨ih.1.trans_le step.dispatchers_le, (step.settings ih.1).trans ih.2⟩
  exact both.2

/-- The dispatcher of a pass is one that was made. -/
theorem Reached.belongs {w : World} (reached : w.Reached) {p : PassId} {pass : Pass}
    (found : w.passes[p]? = some pass) : pass.dispatcher < w.dispatchers.length := by
  revert p pass
  refine Reached.induction (P := fun w => ∀ {p : PassId} {pass : Pass},
    w.passes[p]? = some pass → pass.dispatcher < w.dispatchers.length) ?_ ?_ reached
  · intro arity blueprints p pass found
    simp at found
  · intro w w' reached ih progress p pass found
    refine lt_of_lt_of_le ?_ progress.tableStep.dispatchers_le
    cases progress.passStep.choose_spec.sight p with
    | kept same same_begins same_ends => exact ih (same ▸ found)
    | started before after fresh no_calls named caller same_begins same_ends =>
      rw [after, Option.some.injEq] at found
      exact found ▸ reached.placed.there _ named
    | turned before after becomes marks =>
      rw [after, Option.some.injEq] at found
      rw [← found, becomes.same.2]
      exact ih before

/-- So is the dispatcher that somebody holds. -/
theorem Reached.lt_of_kept {w : World} (reached : w.Reached) {d : DispatcherId}
    (kept : w.keeps d = true) : d < w.dispatchers.length := by
  have named : ∀ e ∈ w.names.entries, e.2 < w.dispatchers.length := by
    refine Reached.induction (P := fun w => ∀ e ∈ w.names.entries, e.2 < w.dispatchers.length)
      ?_ ?_ reached
    · simp
    · intro w w' reached ih step e member
      have later := step.tableStep.dispatchers_le
      cases step.tableStep with
      | aside aside => exact (ih e (aside.names ▸ member)).trans_le later
      | turned turn guard_turn aside => exact (ih e ((aside.names ▸ member :))).trans_le later
      | createdDispatcher settings vacant after =>
        subst after
        rcases mem_entries_put member with old | new
        · exact (ih e old).trans_le later
        · simp [new]
      | droppedDispatcher name after =>
        subst after
        exact ih e (List.mem_of_mem_filter member)
      | createdHandler blueprint wish vacant after =>
        subst after
        exact ih e member
  rcases (keeps_iff w d).mp kept with ⟨e, member, rfl⟩ | ⟨p, pass, found, -, rfl⟩
  · exact named e member
  · exact reached.belongs found

theorem Reached.isActive_of_leads {w w' : World} (reached : w.Reached) (leads : w.Leads w')
    {d : DispatcherId} {h : HandlerId} {generation : UInt64} {since earlier : List Event}
    (made : w.history = since ++ .subscribed d h generation :: earlier)
    (bound : inserts d w'.history < inserts d (.subscribed d h generation :: earlier) + 2 ^ 64)
    (active : w'.isActive ⟨some d, w.keyOf h, generation⟩ = true) :
    w.isActive ⟨some d, w.keyOf h, generation⟩ = true := by
  obtain ⟨later, grown⟩ := leads.history
  rw [made, ← List.append_assoc] at grown
  rw [grown, inserts_append] at bound
  have bound_later : inserts d (later ++ since) < 2 ^ 64 := by omega
  have bound_since := (inserts_le_append later since).trans_lt bound_later
  obtain ⟨key, lies⟩ := (reached.stamped (made ▸ List.suffix_append _ _)
    (Event.writes?_subscribed d h generation)).2
  -- the keys of the later world are good in the earlier one
  have keyed : w.KeyedBy w'.keyOf := fun x other lies => (leads.lies lies).keyOf
  have same : w.keyOf h = w'.keyOf h := lies.keyOf.trans (leads.lies lies).keyOf.symm
  rw [same] at active ⊢
  obtain ⟨kept, undisturbed⟩ := ((reached.leads leads).isActive_iff_undisturbed w'.keyedBy_keyOf
    grown bound_later).mp active
  have undisturbed := undisturbed.of_append
  have there := lt_of_entry
    (Roster.mem_of_lookup (reached.find?_of_undisturbed keyed made undisturbed))
  exact (reached.isActive_iff_undisturbed keyed made bound_since).mpr
    ⟨leads.keeps_of_keeps there kept, undisturbed⟩

/-- The registration of the guard is gone, if it was still there, and nothing else happened to any
registry. -/
structure LetsGo (w : World) (guard : Guard) (w' : World) : Prop where
  gone : w.isActive guard = true → ∀ d, guard.dispatcher = some d →
    (w'.registry d).find? guard.key = none
  others : ∀ d key, guard.dispatcher ≠ some d ∨ guard.key ≠ key →
    (w'.registry d).find? key = (w.registry d).find? key
  counter : ∀ d, (w'.registry d).counter = (w.registry d).counter
  late : w.isActive guard = false → ∀ d, w'.registry d = w.registry d
  spent : w'.isActive guard = false
  guards : ∀ other, other ≠ guard → w'.isActive other = w.isActive other

theorem keeps_dropGuard (w : World) (guard : Guard) (d : DispatcherId) :
    (w.dropGuard guard).keeps d = w.keeps d := by
  obtain ⟨_ | e, key, generation⟩ := guard
  · rfl
  · cases kept : w.keeps e with
    | true => rw [dropGuard_kept kept]; rfl
    | false => rw [dropGuard_gone kept]; rfl

theorem registry_dropGuard (w : World) (guard : Guard) (d : DispatcherId) :
    (w.dropGuard guard).registry d =
      if w.isActive guard = true ∧ guard.dispatcher = some d then
        ((w.registry d).removeGeneration guard.key guard.generation).2
      else w.registry d := by
  obtain ⟨_ | e, key, generation⟩ := guard
  · simp [dropGuard, releaseGuard]
  · cases kept : w.keeps e with
    | false =>
      rw [dropGuard_gone kept]
      simp only [isActive, kept, Bool.false_and, Bool.false_eq_true, false_and, if_false]
      rfl
    | true =>
      rw [dropGuard_kept kept]
      simp only [isActive, kept, Bool.true_and, Option.some.injEq]
      cases holds : (w.registry e).holds key generation with
      | false =>
        simp only [Registry.removeGeneration, holds, Bool.false_eq_true, if_false, false_and,
          registry_setRegistry_self]
        rfl
      | true =>
        have there : e < w.dispatchers.length := by
          by_contra large
          rw [registry_of_le (Nat.le_of_not_lt large)] at holds
          cases holds
        by_cases same : e = d
        · subst same
          simp only [and_self, if_true]
          exact registry_setRegistry w there _
        · simp only [same, and_false, if_false]
          exact registry_setRegistry_of_ne w same _

theorem counter_removeGeneration (registry : Registry) (key : Key) (generation : UInt64) :
    (registry.removeGeneration key generation).2.counter = registry.counter := by
  unfold Registry.removeGeneration
  split <;> rfl

theorem removed_removeGeneration (registry : Registry) (key : Key) (generation : UInt64) :
    (registry.removeGeneration key generation).1 = registry.holds key generation := by
  unfold Registry.removeGeneration
  split <;> simp_all

theorem holds_removeGeneration_self (registry : Registry) (key : Key) (generation : UInt64) :
    (registry.removeGeneration key generation).2.holds key generation = false := by
  unfold Registry.removeGeneration
  split
  · simp [Registry.holds, Registry.find?, Roster.find?_erase]
  · rename_i missing
    simpa using missing

theorem holds_removeGeneration {registry : Registry} {key other : Key}
    {generation generation' : UInt64} (different : key = other → generation' ≠ generation) :
    (registry.removeGeneration key generation).2.holds other generation' =
      registry.holds other generation' := by
  unfold Registry.holds
  rw [Registry.find?_removeGeneration]
  by_cases removed : key = other ∧ registry.holds key generation = true
  · rw [if_pos removed]
    obtain ⟨rfl, holds⟩ := removed
    unfold Registry.holds at holds
    cases found : registry.find? key with
    | none => rfl
    | some entry =>
      simp only [found, decide_eq_true_eq] at holds
      subst holds
      simpa using (different rfl).symm
  · rw [if_neg removed]

theorem letsGo_dropGuard (w : World) (guard : Guard) : w.LetsGo guard (w.dropGuard guard) where
  gone active d belongs := by
    have holds : (w.registry d).holds guard.key guard.generation = true := by
      simp only [isActive, belongs, Bool.and_eq_true] at active
      exact active.2
    rw [registry_dropGuard, if_pos ⟨active, belongs⟩, Registry.find?_removeGeneration,
      if_pos ⟨rfl, holds⟩]
  others d key elsewhere := by
    rw [registry_dropGuard]
    split
    · rename_i active
      rw [Registry.find?_removeGeneration, if_neg fun removed =>
        elsewhere.elim (· active.2) (· removed.1)]
    · rfl
  counter d := by
    rw [registry_dropGuard]
    split
    · exact counter_removeGeneration ..
    · rfl
  late inactive d := by simp [registry_dropGuard, inactive]
  spent := by
    obtain ⟨_ | d, key, generation⟩ := guard
    · rfl
    · rw [isActive_some, keeps_dropGuard, registry_dropGuard]
      split
      · rw [holds_removeGeneration_self, Bool.and_false]
      · rename_i inactive
        simpa [isActive_some] using inactive
  guards other different := by
    obtain ⟨_ | d, key, generation⟩ := other
    · rfl
    · rw [isActive_some, isActive_some, keeps_dropGuard, registry_dropGuard]
      split
      · rename_i active
        rw [holds_removeGeneration]
        rintro rfl rfl
        exact different (active.2 ▸ rfl)
      · rfl

theorem unsubscribe_answer (w : World) (guard : Guard) :
    (w.unsubscribe guard).2 = w.isActive guard := by
  rw [unsubscribe_eq]
  obtain ⟨_ | d, key, generation⟩ := guard
  · rfl
  · cases kept : w.keeps d with
    | false => simp [releaseGuard, isActive, kept]
    | true =>
      simp only [releaseGuard, isActive, kept, if_true, Bool.true_and, removed_removeGeneration]

theorem Reached.given {w : World} (reached : w.Reached) :
    ∀ name guard, w.guards.find? name = some guard → ∃ d h since earlier,
      guard.dispatcher = some d ∧ w.LiesAt h guard.key ∧
        w.history = since ++ .subscribed d h guard.generation :: earlier := by
  refine Reached.induction (P := fun w => ∀ name guard, w.guards.find? name = some guard →
    ∃ d h since earlier, guard.dispatcher = some d ∧ w.LiesAt h guard.key ∧
      w.history = since ++ .subscribed d h guard.generation :: earlier) ?_ ?_ reached
  · intro arity blueprints name guard found
    cases found
  · intro w w' reached ih progress name guard found
    have step := progress.tableStep
    rcases step.guard found with old | ⟨d, h, rfl, lies, -, later, history⟩
    · obtain ⟨d, h, since, earlier, belongs, lies, made⟩ := ih name guard old
      obtain ⟨events, history⟩ := step.history
      exact ⟨d, h, events ++ since, earlier, belongs, step.lies lies,
        by rw [history, made, List.append_assoc]⟩
    · exact ⟨d, h, later, w.history, rfl, step.lies lies, history⟩

theorem Guarded.generation_ne {w : World} (reached : w.Reached) {d : DispatcherId}
    (guarded : w.Guarded d) (bound : inserts d w.history + 1 < 2 ^ 64) {name : String}
    {guard : Guard} (found : w.guards.find? name = some guard)
    (belongs : guard.dispatcher = some d) :
    guard.generation ≠ (w.registry d).counter + 1 := by
  obtain ⟨h, at_generation, -⟩ := guarded name guard found belongs
  intro same
  have small := registrantAt_le at_generation
  rw [same, reached.next_generation bound] at small
  exact absurd small (Nat.not_succ_le_self _)

/-- No registration has two guards. -/
theorem Reached.guards_apart {w : World} (reached : w.Reached) {d : DispatcherId}
    (bound : inserts d w.history < 2 ^ 64) {name name' : String} {guard guard' : Guard}
    (found : w.guards.find? name = some guard) (found' : w.guards.find? name' = some guard')
    (belongs : guard.dispatcher = some d) (belongs' : guard'.dispatcher = some d)
    (same : guard.generation = guard'.generation) : name = name' := by
  revert bound found found'
  refine Reached.induction (P := fun w => inserts d w.history < 2 ^ 64 →
    w.guards.find? name = some guard → w.guards.find? name' = some guard' → name = name')
    ?_ ?_ reached
  · intro arity blueprints _ found
    cases found
  · intro w w' reached ih progress bound found found'
    by_contra different
    have step := progress.tableStep
    have bound_before := (inserts_le_of_step step d).trans_lt bound
    have guarded := reached.guarded bound_before
    -- whoever has just got a guard has one of the next generation
    have next : ∀ {later : List Event} {h : HandlerId}, w'.history =
        later ++ .subscribed d h ((w.registry d).counter + 1) :: w.history →
        inserts d w.history + 1 < 2 ^ 64 := by
      intro later h history
      rw [history, inserts_append, inserts_cons] at bound
      simp only [Event.registrant?, if_true, Option.isSome_some] at bound
      omega
    rcases step.guard found with old | ⟨e, h, rfl, -, others, later, history⟩
    · rcases step.guard found' with old' | ⟨e, h, rfl, -, -, later, history⟩
      · exact different (ih bound_before old old')
      · cases belongs'
        exact guarded.generation_ne reached (next history) old belongs same
    · cases belongs
      rw [others name' (Ne.symm different)] at found'
      exact guarded.generation_ne reached (next history) found' belongs' same.symm

/-- What a guard is to the registration that it was given out with, in a world and in another that
comes later. The events are those since the registration, and those up to it. -/
structure Owns (w later : World) (guard : Guard) (d : DispatcherId) (h : HandlerId)
    (since earlier : List Event) : Prop where
  active_iff : inserts d since < 2 ^ 64 → (w.isActive guard = true ↔
    w.keeps d = true ∧ Undisturbed w.keyOf d h since earlier)
  /-- A guard that is not active never is again. -/
  once : inserts d later.history < inserts d earlier + 2 ^ 64 →
    later.isActive guard = true → w.isActive guard = true
  /-- No other guard of its key is active. -/
  alone : ∀ other, other.dispatcher = guard.dispatcher → other.key = guard.key →
    w.isActive guard = true → w.isActive other = true → other = guard
  holder : inserts d w.history < 2 ^ 64 → ∀ name name', w.guards.find? name = some guard →
    w.guards.find? name' = some guard → name = name'
  answer : (w.unsubscribe guard).2 = w.isActive guard
  unsubscribed : w.LetsGo guard (w.unsubscribe guard).1
  dropped : w.LetsGo guard (w.dropGuard guard)

end World

/-- In every run, a guard owns the registration that it was given out with, and all guards were
given out with one. Only what would change if a generation were handed out a second time is bound
to there being fewer registrations than generations. -/
theorem guard_owns_registration (arity : Arity) (blueprints : List Blueprint)
    (moves more : List Move) :
    let w := ((Machine.idle arity blueprints).run moves).world
    let later := ((Machine.idle arity blueprints).run (moves ++ more)).world
    (∀ d h generation since earlier,
      w.history = since ++ .subscribed d h generation :: earlier →
      w.Owns later ⟨some d, w.keyOf h, generation⟩ d h since
        (.subscribed d h generation :: earlier)) ∧
    ∀ name guard, w.guards.find? name = some guard → ∃ d h since earlier,
      guard = ⟨some d, w.keyOf h, guard.generation⟩ ∧
        w.history = since ++ .subscribed d h guard.generation :: earlier := by
  intro w later
  have reached : w.Reached := Machine.run_reached arity blueprints moves
  have leads : w.Leads later := by
    have steady := (Machine.run_steady (Machine.steady_idle arity blueprints) moves).2
    show w.Leads ((Machine.idle arity blueprints).run (moves ++ more)).world
    rw [Machine.run_append]
    exact (Machine.run_steady steady more).1
  constructor
  · intro d h generation since earlier made
    refine ⟨reached.isActive_iff_undisturbed w.keyedBy_keyOf made,
      reached.isActive_of_leads leads made, fun other => World.eq_of_isActive,
      fun bound name name' found found' => ?_, w.unsubscribe_answer _, ?_, w.letsGo_dropGuard _⟩
    · exact reached.guards_apart bound found found' rfl rfl rfl
    · rw [World.unsubscribe_eq]
      exact w.letsGo_dropGuard _
  · intro name guard found
    obtain ⟨d, h, since, earlier, belongs, lies, made⟩ := reached.given name guard found
    refine ⟨d, h, since, earlier, ?_, made⟩
    rw [lies.keyOf, ← belongs]

/-- A handler is reclaimed and its entry purged, and another handler takes its place in memory. -/
def reusedMoves : List Move :=
  [.act (.createDispatcher (some "d") .usual), .act (.createHandler (some "a") 0 (some 7)),
    .act (.subscribe (some "f") (some "d") (some "a")), .act (.drop (some "a")),
    .act (.forget (some "a")), .act (.purge (some "d")),
    .act (.createHandler (some "b") 0 (some 7)), .act (.subscribe (some "g") (some "d") (some "b"))]

/-- The guard of the one does not touch the registration of the other. -/
theorem guard_owns_registration_reused :
    let w := ((Machine.idle .simple [{}]).run reusedMoves).world
    let stale : Guard := ⟨some 0, w.keyOf "a", 1⟩
    let guard : Guard := ⟨some 0, w.keyOf "b", 2⟩
    (w.guards.find? "f" = some stale ∧ w.guards.find? "g" = some guard ∧ stale.key = guard.key) ∧
    w.isActive stale = false ∧ w.isActive guard = true ∧ (w.unsubscribe stale).2 = false ∧
    (w.unsubscribe stale).1.isActive guard = true := by
  intro w stale guard
  have owns := (guard_owns_registration .simple [{}] reusedMoves []).1 0 "a" 1
    [.subscribed 0 "b" 2, .purged 0 none 1, .reclaimed "a"] [] (by decide +kernel)
  have inactive : w.isActive stale = false := by decide +kernel
  have active : w.isActive guard = true := by decide +kernel
  refine ⟨by decide +kernel, inactive, active, owns.answer.trans inactive, ?_⟩
  exact (owns.unsubscribed.guards guard (by decide +kernel)).trans active

end Fanout
