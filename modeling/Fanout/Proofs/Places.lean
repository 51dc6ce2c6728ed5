import Fanout.Proofs.Census
import Fanout.Proofs.References

/-! Where handlers lie. The entry under a key is that of the handler which lies there, and no two
handlers lie at the same place that are alive, watched or registered with a dispatcher that is still
kept; so what is done under the key of one handler is never done to another. -/
namespace Fanout.World

/-- The handler lies where the key says. -/
def LiesAt (w : World) (h : HandlerId) (key : Key) : Prop :=
  ∃ handler, w.handlers.find? h = some handler ∧ handler.key = key

theorem LiesAt.keyOf {w : World} {h : HandlerId} {key : Key} (lies : w.LiesAt h key) :
    w.keyOf h = key := by
  obtain ⟨handler, found, rfl⟩ := lies
  simp [World.keyOf, found]

theorem liesAt_of_found {w : World} {h : HandlerId} {handler : Handler}
    (found : w.handlers.find? h = some handler) : w.LiesAt h (w.keyOf h) :=
  ⟨handler, found, by simp [keyOf, found]⟩

theorem registry_setRegistry (w : World) {d : DispatcherId} (there : d < w.dispatchers.length)
    (registry : Registry) : (w.setRegistry d registry).registry d = registry := by
  simp [World.registry, dispatcher, setRegistry, there]

theorem registry_setRegistry_of_ne (w : World) {d e : DispatcherId} (other : d ≠ e)
    (registry : Registry) : (w.setRegistry d registry).registry e = w.registry e := by
  simp [World.registry, dispatcher, setRegistry, other]

theorem registry_of_dispatchers {w w' : World} (h : w'.dispatchers = w.dispatchers)
    (d : DispatcherId) : w'.registry d = w.registry d := by
  simp [World.registry, dispatcher, h]

theorem registry_of_le {w : World} {d : DispatcherId} (h : w.dispatchers.length ≤ d) :
    w.registry d = {} := by
  simp [World.registry, dispatcher, List.getElem?_eq_none h]

theorem registry_arrange {w : World} {d : DispatcherId} (there : d < w.dispatchers.length)
    (order : List (Key × Registration)) :
    (w.arrange d order).registry d = { w.registry d with entries := ⟨order⟩ } :=
  registry_setRegistry w there _

theorem registry_arrange_of_ne {w : World} {d e : DispatcherId} (other : d ≠ e)
    (order : List (Key × Registration)) : (w.arrange d order).registry e = w.registry e :=
  registry_setRegistry_of_ne w other _

theorem TableTurn.registry_empty {w : World} {d : DispatcherId} {events : List Event}
    {registry : Registry} (turn : TableTurn w d events registry) (empty : w.registry d = {})
    (unnamed : ¬ w.Named d) : registry = {} := by
  cases turn with
  | insert named found held told => exact absurd named unnamed
  | remove named found held => exact absurd named unnamed
  | release found dispatcher kept => rw [empty]; rfl
  | purge named => exact absurd named unnamed
  | removeNowhere => rw [empty]; rfl
  | tooLate gone key generation => exact empty
  | nothing => exact empty
  | sweep found fresh belongs swept => rw [empty]; rfl
  | arrange perm =>
    rw [empty] at perm ⊢
    rw [perm.eq_nil]

theorem TableTurn.touches {w : World} {d e : DispatcherId} {events : List Event}
    {registry : Registry} (turn : TableTurn w d events registry) (other : d ≠ e) :
    ∀ event ∈ events, event.touches e = false := by
  cases turn with
  | insert named found held told => rcases told with rfl | rfl <;> simp [Event.touches, other]
  | sweep found fresh belongs swept =>
    rcases swept with ⟨rfl, -⟩ | ⟨count, rfl⟩ <;> simp [Event.touches, other]
  | _ => simp [Event.touches, other]

inductive TableSight (w w' : World) (d : DispatcherId) : Prop
  | kept (same : w'.registry d = w.registry d)
      (history : ∃ events, w'.history = events ++ w.history ∧
        ∀ e ∈ events, Event.touches d e = false)
  | turned {events : List Event} {registry : Registry} (turn : TableTurn w d events registry)
      (after : w'.registry d = registry)
      (history : ∃ later, w'.history = later ++ events ++ w.history ∧
        ∀ e ∈ later, Event.touches d e = false)

theorem TableStep.sight {w w' : World} (step : TableStep w w')
    (there : ∀ d, w.Named d → d < w.dispatchers.length) (d : DispatcherId) :
    TableSight w w' d := by
  cases step with
  | aside aside =>
    obtain ⟨events, later, quiet⟩ := aside.history
    exact .kept (registry_of_dispatchers aside.dispatchers d) ⟨events, later, quiet d⟩
  | @turned e events registry guards turn guard_turn aside =>
    obtain ⟨later, history, quiet⟩ := aside.history
    have after : w'.registry d = (w.setRegistry e registry).registry d :=
      registry_of_dispatchers (w := w.setRegistry e registry) aside.dispatchers d
    by_cases hed : e = d
    · subst hed
      have written : w'.registry e = registry := by
        rw [after]
        rcases Nat.lt_or_ge e w.dispatchers.length with small | large
        · exact registry_setRegistry w small registry
        · have unnamed : ¬ w.Named e := fun named => large.not_gt (there e named)
          rw [turn.registry_empty (registry_of_le large) unnamed,
            registry_of_le (by simpa [setRegistry] using large)]
      exact .turned turn written ⟨later, history.trans (List.append_assoc ..).symm, quiet e⟩
    · refine .kept (after.trans (registry_setRegistry_of_ne w hed registry))
        ⟨later ++ events, history.trans (List.append_assoc ..).symm, fun event he => ?_⟩
      rcases List.mem_append.mp he with he | he
      · exact quiet d event he
      · exact turn.touches hed event he
  | createdDispatcher settings vacant after =>
    subst after
    refine .kept ?_ ⟨[], rfl, by simp⟩
    unfold World.registry dispatcher
    dsimp only
    rw [List.getElem?_append]
    split
    · rfl
    · rename_i new
      rw [List.getElem?_eq_none (Nat.le_of_not_lt new)]
      cases d - w.dispatchers.length <;> rfl
  | droppedDispatcher name after => exact .kept (after ▸ rfl) ⟨[], after ▸ rfl, by simp⟩
  | createdHandler blueprint wish vacant after =>
    exact .kept (after ▸ rfl) ⟨[], after ▸ rfl, by simp⟩

theorem TableStep.history {w w' : World} (step : TableStep w w') :
    ∃ events, w'.history = events ++ w.history := by
  cases step with
  | aside aside =>
    obtain ⟨events, later, -⟩ := aside.history
    exact ⟨events, later⟩
  | turned turn guard_turn aside =>
    obtain ⟨later, history, -⟩ := aside.history
    exact ⟨later ++ _, history.trans (List.append_assoc ..).symm⟩
  | createdDispatcher settings vacant after => exact ⟨[], after ▸ rfl⟩
  | droppedDispatcher name after => exact ⟨[], after ▸ rfl⟩
  | createdHandler blueprint wish vacant after => exact ⟨[], after ▸ rfl⟩

theorem InPlace.forward {old new : Option Handler} (h : InPlace old new) {handler : Handler}
    (found : old = some handler) : ∃ handler', new = some handler' ∧
      handler'.address = handler.address := by
  cases h with
  | none => cases found
  | some same =>
    cases found
    exact ⟨_, rfl, same.1⟩

theorem InPlace.backward {old new : Option Handler} (h : InPlace old new) {handler' : Handler}
    (found : new = some handler') : ∃ handler, old = some handler ∧
      handler'.address = handler.address ∧ (handler'.watched = true → handler.watched = true) := by
  cases h with
  | none => cases found
  | some same =>
    cases found
    exact ⟨_, rfl, same⟩

/-- A handler that is there was there before, or has just been made. -/
theorem TableStep.handler {w w' : World} (step : TableStep w w') {h : HandlerId}
    {handler' : Handler} (found : w'.handlers.find? h = some handler') :
    (∃ handler, w.handlers.find? h = some handler ∧ handler'.address = handler.address ∧
      (handler'.watched = true → handler.watched = true)) ∨
    ∃ blueprint wish, w.handlers.find? h = none ∧ w' = w.createHandler h blueprint wish := by
  cases step with
  | aside aside => exact .inl ((aside.handlers h).backward found)
  | turned turn guard_turn aside => exact .inl ((aside.handlers h).backward found)
  | createdDispatcher settings vacant after =>
    subst after
    exact .inl ⟨handler', found, rfl, id⟩
  | droppedDispatcher name after =>
    subst after
    exact .inl ⟨handler', found, rfl, id⟩
  | @createdHandler h' blueprint wish vacant after =>
    by_cases same : h' = h
    · subst same
      exact .inr ⟨blueprint, wish, vacant, after⟩
    · subst after
      simp only [createHandler, Roster.find?_put, same, if_false] at found
      exact .inl ⟨handler', found, rfl, id⟩

theorem TableStep.lies {w w' : World} (step : TableStep w w') {h : HandlerId} {key : Key}
    (lies : w.LiesAt h key) : w'.LiesAt h key := by
  obtain ⟨handler, found, rfl⟩ := lies
  have still : ∀ {v : World}, InPlace (w.handlers.find? h) (v.handlers.find? h) →
      v.LiesAt h handler.key := by
    intro v in_place
    obtain ⟨handler', found', same⟩ := in_place.forward found
    exact ⟨handler', found', by simp [Handler.key, same]⟩
  cases step with
  | aside aside => exact still (aside.handlers h)
  | turned turn guard_turn aside => exact still (aside.handlers h)
  | createdDispatcher settings vacant after =>
    subst after
    exact ⟨handler, found, rfl⟩
  | droppedDispatcher name after =>
    subst after
    exact ⟨handler, found, rfl⟩
  | @createdHandler h' blueprint wish vacant after =>
    subst after
    have other : h' ≠ h := by
      rintro rfl
      rw [vacant] at found
      cases found
    exact ⟨handler, by simp [createHandler, Roster.find?_put, other, found], rfl⟩

/-- An entry that is there was there before, or has just been written. -/
theorem TableTurn.entry {w : World} {d : DispatcherId} {events : List Event} {registry : Registry}
    (turn : TableTurn w d events registry) (distinct : (w.registry d).entries.Distinct) {key : Key}
    {entry : Registration} (found : registry.find? key = some entry) :
    (w.registry d).find? key = some entry ∨
      ∃ h handler, w.handlers.find? h = some handler ∧
        (handler.owned ≠ 0 ∨ handler.alive = true ∧ handler.watched = true) ∧
        key = w.keyOf h ∧ entry = ⟨h, (w.registry d).counter + 1⟩ := by
  have purged : ∀ registry', registry' = ((w.registry d).purge w.alive).2 →
      registry'.find? key = some entry → (w.registry d).find? key = some entry := by
    rintro _ rfl kept
    exact ((Registry.find?_purge distinct w.alive key entry).mp kept).1
  cases turn with
  | @insert h handler event named handler_found held told =>
    rw [Registry.find?_insert] at found
    split at found
    · rename_i same
      simp only [Option.some.injEq] at found
      exact .inr ⟨h, handler, handler_found, held, same.symm, found.symm⟩
    · exact .inl found
  | remove named handler_found held =>
    rw [Registry.find?_remove] at found
    split at found
    · cases found
    · exact .inl found
  | release guard_found dispatcher kept =>
    rw [Registry.find?_removeGeneration] at found
    split at found
    · cases found
    · exact .inl found
  | purge named => exact .inl (purged _ rfl found)
  | removeNowhere =>
    rw [Registry.find?_remove] at found
    split at found
    · cases found
    · exact .inl found
  | tooLate gone key' generation => exact .inl found
  | nothing => exact .inl found
  | sweep pass_found fresh belongs swept => exact .inl (purged _ rfl found)
  | arrange perm => exact .inl ((distinct.find?_perm perm key).symm.trans found)

theorem TableTurn.distinct {w : World} {d : DispatcherId} {events : List Event}
    {registry : Registry} (turn : TableTurn w d events registry)
    (h : (w.registry d).entries.Distinct) : registry.entries.Distinct := by
  have removed : ∀ key, ((w.registry d).remove key).2.entries.Distinct := by
    intro key
    unfold Registry.remove
    split
    · exact h.erase key
    · exact h
  cases turn with
  | insert named found held told => exact h.put _ _
  | remove named found held => exact removed _
  | release found dispatcher kept =>
    unfold Registry.removeGeneration
    split
    · exact h.erase _
    · exact h
  | purge named => exact h.filter _
  | removeNowhere => exact removed _
  | tooLate gone key generation => exact h
  | nothing => exact h
  | sweep found fresh belongs swept => exact h.filter _
  | arrange perm => exact h.perm perm

theorem keeps_iff (w : World) (d : DispatcherId) : w.keeps d = true ↔
    (∃ e ∈ w.names.entries, e.2 = d) ∨
      ∃ (p : PassId) (pass : Pass), w.passes[p]? = some pass ∧ pass.phase.isOpen = true ∧
        pass.dispatcher = d := by
  simp only [keeps, Bool.or_eq_true, List.any_eq_true, decide_eq_true_eq, Bool.and_eq_true]
  constructor
  · rintro (h | ⟨pass, member, h⟩)
    · exact .inl h
    · obtain ⟨p, hp⟩ := List.getElem?_of_mem member
      exact .inr ⟨p, pass, hp, h⟩
  · rintro (h | ⟨p, pass, hp, h⟩)
    · exact .inl h
    · exact .inr ⟨pass, List.mem_of_getElem? hp, h⟩

theorem keeps_of_named {w : World} {d : DispatcherId} (named : w.Named d) : w.keeps d = true := by
  obtain ⟨name, found⟩ := named
  exact (keeps_iff w d).mpr (.inl ⟨(name, d), Roster.mem_of_lookup found, rfl⟩)

theorem keeps_of_open {w : World} {p : PassId} {pass : Pass} (found : w.passes[p]? = some pass)
    (isOpen : pass.phase.isOpen = true) : w.keeps pass.dispatcher = true :=
  (keeps_iff w pass.dispatcher).mpr (.inr ⟨p, pass, found, isOpen, rfl⟩)

theorem mem_entries_put {κ α : Type} [DecidableEq κ] {roster : Roster κ α} {key : κ} {value : α}
    {e : κ × α} (h : e ∈ (roster.put key value).entries) : e ∈ roster.entries ∨ e.2 = value := by
  obtain ⟨entries⟩ := roster
  unfold Roster.put at h
  dsimp only at h ⊢
  induction entries with
  | nil =>
    simp only [Roster.overwrite, List.mem_singleton] at h
    exact .inr (h ▸ rfl)
  | cons x xs ih =>
    obtain ⟨k, y⟩ := x
    unfold Roster.overwrite at h
    split at h
    · rcases List.mem_cons.mp h with rfl | h
      · exact .inr rfl
      · exact .inl (List.mem_cons_of_mem _ h)
    · rcases List.mem_cons.mp h with rfl | h
      · exact .inl List.mem_cons_self
      · exact (ih h).imp (List.mem_cons_of_mem _) id

/-- A dispatcher that is kept was kept before, or has just been made. -/
theorem TableStep.keeps {w w' : World} (step : TableStep w w') {opens : PassId → Prop}
    (passStep : PassStep opens w w') {d : DispatcherId} (kept : w'.keeps d = true) :
    w.keeps d = true ∨ d = w.dispatchers.length := by
  rcases (keeps_iff w' d).mp kept with ⟨e, member, rfl⟩ | ⟨p, pass, found, isOpen, rfl⟩
  · have before : e ∈ w.names.entries → w.keeps e.2 = true := fun h =>
      (keeps_iff w e.2).mpr (.inl ⟨e, h, rfl⟩)
    cases step with
    | aside aside => exact .inl (before (aside.names ▸ member))
    | turned turn guard_turn aside => exact .inl (before ((aside.names ▸ member :)))
    | createdDispatcher settings vacant after =>
      subst after
      exact (mem_entries_put member).imp before id
    | droppedDispatcher name after =>
      subst after
      exact .inl (before (List.mem_of_mem_filter member))
    | createdHandler blueprint wish vacant after =>
      subst after
      exact .inl (before member)
  · cases passStep.sight p with
    | kept same same_begins same_ends => exact .inl (keeps_of_open (same ▸ found) isOpen)
    | started before after fresh no_calls named caller same_begins same_ends =>
      rw [after, Option.some.injEq] at found
      exact .inl (found ▸ keeps_of_named named)
    | turned before after becomes marks =>
      rw [after, Option.some.injEq] at found
      rw [← found, becomes.same.2]
      exact .inl (keeps_of_open before becomes.was_open)

theorem Progress.keeps {w w' : World} (step : Progress w w') {d : DispatcherId}
    (kept : w'.keeps d = true) : w.keeps d = true ∨ d = w.dispatchers.length :=
  step.tableStep.keeps step.passStep.choose_spec kept

/-- Entries stand under the keys of their handlers, dispatchers that are named are there, and
handlers at the same place are the same if their place is not free. -/
structure Placed (w : World) : Prop where
  there : ∀ d, w.Named d → d < w.dispatchers.length
  distinct : ∀ d, (w.registry d).entries.Distinct
  at_home : ∀ d key entry, (w.registry d).find? key = some entry → w.LiesAt entry.handler key
  apart : ∀ h h' handler handler', w.handlers.find? h = some handler →
    w.handlers.find? h' = some handler' → w.isReserved h handler = true →
    w.isReserved h' handler' = true → handler.address = handler'.address → h = h'

theorem Placed.key_eq {w : World} (placed : w.Placed) {d : DispatcherId} {key key' : Key}
    {entry entry' : Registration} (found : (w.registry d).find? key = some entry)
    (found' : (w.registry d).find? key' = some entry') (same : entry.handler = entry'.handler) :
    key = key' := by
  have lies := placed.at_home d key entry found
  have lies' := placed.at_home d key' entry' found'
  exact lies.keyOf.symm.trans ((congrArg w.keyOf same).trans lies'.keyOf)

theorem Placed.handlers_nodup {w : World} (placed : w.Placed) (d : DispatcherId) :
    ((w.registry d).entries.entries.map (·.2.handler)).Nodup := by
  refine List.Nodup.map_on ?_ (placed.distinct d).of_map
  rintro ⟨key, entry⟩ he ⟨key', entry'⟩ he' same
  have found := (Roster.find?_eq_some_iff (placed.distinct d) key entry).mpr he
  have found' := (Roster.find?_eq_some_iff (placed.distinct d) key' entry').mpr he'
  have same_key := placed.key_eq found found' same
  subst same_key
  rw [found] at found'
  rw [Option.some.inj found']

theorem Placed.proper {w : World} (placed : w.Placed) (d : DispatcherId) :
    (w.registry d).Proper := ⟨placed.distinct d, placed.handlers_nodup d⟩

theorem isReserved_iff (w : World) (h : HandlerId) (handler : Handler) :
    w.isReserved h handler = true ↔ handler.alive = true ∨ handler.watched = true ∨
      ∃ d < w.dispatchers.length, w.keeps d = true ∧
        ∃ e ∈ (w.registry d).entries.entries, e.2.handler = h := by
  simp only [isReserved, Bool.or_eq_true, List.any_eq_true, List.mem_range, Bool.and_eq_true,
    decide_eq_true_eq, or_assoc]

theorem lt_of_entry {w : World} {d : DispatcherId} {e : Key × Registration}
    (member : e ∈ (w.registry d).entries.entries) : d < w.dispatchers.length := by
  by_contra large
  rw [registry_of_le (Nat.le_of_not_lt large)] at member
  simp at member

namespace Balanced
variable {w : World} {extra : List HandlerId} {h : HandlerId} {handler : Handler}

theorem alive_of_owned (b : w.Balanced extra) (found : w.handlers.find? h = some handler)
    (owned : handler.owned ≠ 0) : handler.alive = true := by
  have strong := ((balancedAt_iff found).mp (b h)).1
  simp only [Handler.alive, decide_eq_true_eq]
  omega

theorem alive_of_held (b : w.Balanced extra) (found : w.handlers.find? h = some handler)
    (held : handler.owned ≠ 0 ∨ handler.alive = true ∧ handler.watched = true) :
    handler.alive = true := by
  rcases held with owned | ⟨alive, -⟩
  · exact b.alive_of_owned found owned
  · exact alive

/-- The history tells who was reclaimed. -/
theorem alive_iff (b : w.Balanced extra) (found : w.handlers.find? h = some handler) :
    handler.alive = true ↔ .reclaimed h ∉ w.history := by
  rw [((balancedAt_iff found).mp (b h)).2]
  simp [Handler.alive, Nat.pos_iff_ne_zero]

end Balanced

theorem address_lt_freshAddress (w : World) {h : HandlerId} {handler : Handler}
    (found : w.handlers.find? h = some handler) : handler.address < w.freshAddress := by
  have grows : ∀ (entries : List (HandlerId × Handler)) (a : Nat),
      a ≤ entries.foldl (fun address e => max address (e.2.address + 1)) a ∧
        ∀ e ∈ entries,
          e.2.address < entries.foldl (fun address e => max address (e.2.address + 1)) a := by
    intro entries
    induction entries with
    | nil => exact fun a => ⟨le_refl a, by simp⟩
    | cons x xs ih =>
      intro a
      obtain ⟨more, above⟩ := ih (max a (x.2.address + 1))
      refine ⟨(le_max_left _ _).trans more, fun e he => ?_⟩
      rcases List.mem_cons.mp he with rfl | he
      · exact lt_of_lt_of_le (Nat.lt_succ_self _) ((le_max_right _ _).trans more)
      · exact above e he
  exact (grows w.handlers.entries 1).2 (h, handler) (Roster.mem_of_lookup found)

theorem addressFor_ne {w : World} {h : HandlerId} {handler : Handler}
    (found : w.handlers.find? h = some handler) (reserved : w.isReserved h handler = true)
    (wish : Option Nat) : handler.address ≠ w.addressFor wish := by
  have fresh := (w.address_lt_freshAddress found).ne
  unfold addressFor
  split
  · rename_i address
    split
    · exact fresh
    · rename_i free
      rintro rfl
      refine free (List.any_eq_true.mpr ⟨(h, handler), Roster.mem_of_lookup found, ?_⟩)
      simp [reserved]
  · exact fresh

section
variable {w w' : World} {extra extra' : List HandlerId} (step : TableStep w w') (earlier : w.Placed)
include step earlier

theorem TableStep.there : ∀ d, w'.Named d → d < w'.dispatchers.length := by
  rintro d ⟨name, found⟩
  have before : w.names.find? name = some d → d < w.dispatchers.length :=
    fun h => earlier.there d ⟨name, h⟩
  cases step with
  | aside aside =>
    rw [aside.dispatchers]
    exact before (aside.names ▸ found)
  | turned turn guard_turn aside =>
    rw [aside.dispatchers, aside.names] at *
    simpa [write, setRegistry] using before found
  | @createdDispatcher new settings vacant after =>
    subst after
    simp only [Roster.find?_put] at found
    simp only [List.length_append, List.length_singleton]
    split at found
    · simp only [Option.some.injEq] at found
      exact found ▸ Nat.lt_succ_self _
    · exact Nat.lt_succ_of_lt (before found)
  | droppedDispatcher old after =>
    subst after
    simp only [Roster.find?_erase] at found
    split at found
    · cases found
    · exact before found
  | createdHandler blueprint wish vacant after =>
    subst after
    exact before found

variable (keeps : ∀ d, w'.keeps d = true → w.keeps d = true ∨ d = w.dispatchers.length)
  (balanced : w.Balanced extra) (balanced' : w'.Balanced extra')
include keeps balanced balanced'

/-- A handler whose place is not free had it before, or has just been made. -/
theorem TableStep.reserved {h : HandlerId} {handler' : Handler}
    (found : w'.handlers.find? h = some handler') (reserved : w'.isReserved h handler' = true) :
    (∃ handler, w.handlers.find? h = some handler ∧ handler'.address = handler.address ∧
      w.isReserved h handler = true) ∨
    ∃ blueprint wish, w.handlers.find? h = none ∧ w' = w.createHandler h blueprint wish := by
  rcases step.handler found with ⟨handler, old, same, watched⟩ | created
  · refine .inl ⟨handler, old, same, (isReserved_iff ..).mpr ?_⟩
    rcases (isReserved_iff ..).mp reserved with alive | watched' | ⟨d, -, kept, e, member, rfl⟩
    · refine .inl ((balanced.alive_iff old).mpr fun gone => ?_)
      obtain ⟨events, later⟩ := step.history
      exact (balanced'.alive_iff found).mp alive (later ▸ List.mem_append_right _ gone)
    · exact .inr (.inl (watched watched'))
    · have before : (∃ x ∈ (w.registry d).entries.entries, x.2.handler = e.2.handler) →
          ∃ d < w.dispatchers.length, w.keeps d = true ∧
            ∃ x ∈ (w.registry d).entries.entries, x.2.handler = e.2.handler := by
        rintro ⟨x, hx, same⟩
        have there := lt_of_entry hx
        exact ⟨d, there, (keeps d kept).resolve_right there.ne, x, hx, same⟩
      cases step.sight earlier.there d with
      | kept same history => exact .inr (.inr (before ⟨e, same ▸ member, rfl⟩))
      | turned turn after history =>
        have entry : (w'.registry d).find? e.1 = some e.2 :=
          (Roster.find?_eq_some_iff (after ▸ turn.distinct (earlier.distinct d)) e.1 e.2).mpr member
        rw [after] at entry
        rcases turn.entry (earlier.distinct d) entry with old_entry | ⟨x, y, x_found, held, -, he⟩
        · exact .inr (.inr (before ⟨(e.1, e.2), Roster.mem_of_lookup old_entry, rfl⟩))
        · have this : x = e.2.handler := by rw [he]
          rw [this, old, Option.some.injEq] at x_found
          exact .inl (x_found ▸ balanced.alive_of_held (x_found ▸ old) held)
  · exact .inr created

theorem TableStep.placed : w'.Placed := by
  refine ⟨step.there earlier, fun d => ?_, fun d key entry found => ?_, ?_⟩
  · cases step.sight earlier.there d with
    | kept same history => exact same ▸ earlier.distinct d
    | turned turn after history => exact after ▸ turn.distinct (earlier.distinct d)
  · cases step.sight earlier.there d with
    | kept same history => exact step.lies (earlier.at_home d key entry (same ▸ found))
    | turned turn after history =>
      rcases turn.entry (earlier.distinct d) (after ▸ found) with old | ⟨h, handler, hf, -, rfl, rfl⟩
      · exact step.lies (earlier.at_home d key entry old)
      · exact step.lies (liesAt_of_found hf)
  · intro h h' handler handler' found found' reserved reserved' same
    -- a handler that has just been made is the only one, and lies where nobody else does
    have made : ∀ {x y : HandlerId} {x_handler y_handler : Handler} {blueprint : Nat}
        {wish : Option Nat}, w' = w.createHandler x blueprint wish →
        w'.handlers.find? x = some x_handler → w'.handlers.find? y = some y_handler →
        w'.isReserved y y_handler = true → x_handler.address = y_handler.address → x = y := by
      intro x y x_handler y_handler blueprint wish after x_found y_found y_reserved x_same
      by_contra other
      rcases step.reserved earlier keeps balanced balanced' y_found y_reserved with
        ⟨old, y_old, y_same, old_reserved⟩ | ⟨_, _, unknown, -⟩
      · rw [after] at x_found
        simp only [createHandler, Roster.find?_put, if_true, Option.some.injEq] at x_found
        subst x_found
        exact addressFor_ne y_old old_reserved wish (x_same.trans y_same).symm
      · rw [after] at y_found
        simp [createHandler, Roster.find?_put, other, unknown] at y_found
    rcases step.reserved earlier keeps balanced balanced' found reserved with
      ⟨old, was, was_same, was_reserved⟩ | ⟨blueprint, wish, -, after⟩
    · rcases step.reserved earlier keeps balanced balanced' found' reserved' with
        ⟨old', was', was_same', was_reserved'⟩ | ⟨blueprint, wish, -, after⟩
      · exact earlier.apart h h' old old' was was' was_reserved was_reserved'
          (was_same.symm.trans (same.trans was_same'))
      · exact (made after found' found reserved same.symm).symm
    · exact made after found found' reserved' same

end

theorem Reached.placed {w : World} (h : w.Reached) : w.Placed := by
  refine Reached.induction ?_ ?_ h
  · intro arity blueprints
    have empty : ∀ d, World.registry { arity, blueprints } d = {} :=
      fun d => registry_of_le (by simp)
    refine ⟨?_, fun d => ?_, fun d key entry found => ?_, ?_⟩
    · rintro d ⟨name, found⟩
      cases found
    · rw [empty]
      exact Roster.distinct_empty
    · rw [empty] at found
      cases found
    · intro h h' handler handler' found
      cases found
  · exact fun w w' reached ih progress => progress.tableStep.placed ih (fun d => progress.keeps)
      reached.balanced (reached.leads (.single progress)).balanced

end Fanout.World
