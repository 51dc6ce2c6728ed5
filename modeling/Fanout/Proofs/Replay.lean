import Fanout.Proofs.Standing

/-! The history replayed for one key. What stands under a key was written by the last registration
under that key, whoever lay there, unless it was removed since; and the generation that it carries
tells which registration it was. -/
namespace Fanout

/-- The entry that the event writes into the registry of the dispatcher. -/
def Event.writes? (d : DispatcherId) : Event → Option Registration
  | registered e h generation => if e = d then some ⟨h, generation⟩ else none
  | subscribed e h generation => if e = d then some ⟨h, generation⟩ else none
  | _ => none

def Event.removesAt (keyOf : HandlerId → Key) (d : DispatcherId) (key : Key) : Event → Bool
  | unregistered e h removed => e = d && removed && keyOf h = key
  | released e released_key _ removed => e = d && removed && released_key = key
  | _ => false

/-- The event removes the entries of the dead, on demand or by a pass. -/
def Event.sweeps (d : DispatcherId) : Event → Bool
  | purged e none _ => e = d
  | opened _ e _ _ => e = d
  | _ => false

/-- What stands under the key after these events, the latest of them first. -/
def entryAt (keyOf : HandlerId → Key) (d : DispatcherId) (key : Key) :
    List Event → Option Registration
  | [] => none
  | event :: earlier =>
      match event.writes? d with
      | some entry =>
          if keyOf entry.handler = key then some entry else entryAt keyOf d key earlier
      | none =>
          if event.removesAt keyOf d key then none
          else if event.sweeps d then
            (entryAt keyOf d key earlier).filter fun entry =>
              !earlier.contains (.reclaimed entry.handler)
          else entryAt keyOf d key earlier

section
variable {keyOf : HandlerId → Key} {d : DispatcherId} {key : Key} {event : Event}
  {earlier : List Event}

theorem Event.registrant?_eq (event : Event) (d : DispatcherId) :
    event.registrant? d = (event.writes? d).map Registration.handler := by
  cases event <;> simp only [registrant?, writes?, Option.map_none]
  all_goals split <;> rfl

theorem Event.writes?_of_quiet (quiet : event.touches d = false) : event.writes? d = none := by
  cases event <;> simp_all [touches, writes?]

theorem Event.removesAt_of_quiet (quiet : event.touches d = false) :
    event.removesAt keyOf d key = false := by
  cases event <;> simp_all [touches, removesAt]

theorem Event.sweeps_of_quiet (quiet : event.touches d = false) : event.sweeps d = false := by
  cases event with
  | purged e pass count => cases pass <;> simp_all [touches, sweeps]
  | _ => simp_all [touches, sweeps]

theorem Event.keeps_of_writes {entry : Registration} (writes : event.writes? d = some entry)
    (keyOf : HandlerId → Key) (key : Key) :
    event.removesAt keyOf d key = false ∧ event.sweeps d = false := by
  cases event <;> simp_all [writes?, removesAt, sweeps]

theorem entryAt_of_writes {entry : Registration} (writes : event.writes? d = some entry) :
    entryAt keyOf d key (event :: earlier) =
      if keyOf entry.handler = key then some entry else entryAt keyOf d key earlier := by
  rw [entryAt, writes]

theorem entryAt_of_keeps (no_write : event.writes? d = none)
    (no_removal : event.removesAt keyOf d key = false) (no_sweep : event.sweeps d = false) :
    entryAt keyOf d key (event :: earlier) = entryAt keyOf d key earlier := by
  simp [entryAt, no_write, no_removal, no_sweep]

theorem entryAt_of_sweeps (sweeps : event.sweeps d = true) :
    entryAt keyOf d key (event :: earlier) = (entryAt keyOf d key earlier).filter fun entry =>
      !earlier.contains (.reclaimed entry.handler) := by
  cases event <;> simp_all [entryAt, Event.writes?, Event.removesAt, Event.sweeps]

theorem entryAt_append_of_quiet {later : List Event}
    (quiet : ∀ e ∈ later, Event.touches d e = false) (earlier : List Event) :
    entryAt keyOf d key (later ++ earlier) = entryAt keyOf d key earlier := by
  induction later with
  | nil => rfl
  | cons event later ih =>
    have hq := quiet event List.mem_cons_self
    rw [List.cons_append, entryAt_of_keeps (Event.writes?_of_quiet hq)
      (Event.removesAt_of_quiet hq) (Event.sweeps_of_quiet hq)]
    exact ih fun e he => quiet e (List.mem_cons_of_mem _ he)

theorem suffix_of_writes {later : List Event} {entry : Registration}
    (writes : event.writes? d = some entry) (silent : ∀ e ∈ later, Event.writes? d e = none)
    {history : List Event} (suffix : event :: earlier <:+ later ++ history) :
    event :: earlier <:+ history := by
  induction later with
  | nil => exact suffix
  | cons e later ih =>
    rcases List.suffix_cons_iff.mp suffix with same | rest
    · rw [(List.cons.inj same).1, silent e List.mem_cons_self] at writes
      cases writes
    · exact ih (fun x hx => silent x (List.mem_cons_of_mem _ hx)) rest

end

namespace World

/-- The keys are those of the handlers that are there. -/
def KeyedBy (w : World) (keyOf : HandlerId → Key) : Prop :=
  ∀ h key, w.LiesAt h key → keyOf h = key

theorem keyedBy_keyOf (w : World) : w.KeyedBy w.keyOf := fun _ _ lies => lies.keyOf

theorem KeyedBy.of_step {w w' : World} {keyOf : HandlerId → Key} (keyed : w'.KeyedBy keyOf)
    (step : TableStep w w') : w.KeyedBy keyOf :=
  fun h key lies => keyed h key (step.lies lies)

theorem Reached.purge_eq {w : World} (reached : w.Reached) (d : DispatcherId) (key : Key) :
    ((w.registry d).purge w.alive).2.find? key = ((w.registry d).find? key).filter fun entry =>
      !w.history.contains (.reclaimed entry.handler) := by
  ext entry
  rw [reached.purge_iff d key entry, Option.filter_eq_some_iff]
  simp

theorem TableTurn.replays {w : World} (reached : w.Reached) {d : DispatcherId}
    {events : List Event} {registry : Registry} (turn : TableTurn w d events registry)
    {keyOf : HandlerId → Key} (keyed : w.KeyedBy keyOf) {key : Key}
    (replays : (w.registry d).find? key = entryAt keyOf d key w.history) :
    registry.find? key = entryAt keyOf d key (events ++ w.history) := by
  cases turn with
  | @insert h handler event named found held told =>
    have writes : event.writes? d = some ⟨h, (w.registry d).counter + 1⟩ := by
      rcases told with rfl | rfl <;> simp [Event.writes?]
    rw [List.singleton_append, entryAt_of_writes writes, keyed h _ (liesAt_of_found found),
      Registry.find?_insert, replays]
  | @remove h handler named found held =>
    rw [List.singleton_append, Registry.find?_remove]
    simp only [entryAt, Event.writes?, Event.removesAt, Event.sweeps, decide_true, Bool.true_and,
      Bool.and_eq_true, decide_eq_true_eq, keyed h _ (liesAt_of_found found), ← replays]
    by_cases there : (w.registry d).entries.has (w.keyOf h) = true
    · simp [Registry.remove, there]
    · have absent : (w.registry d).find? (w.keyOf h) = none := by
        simpa [Roster.has, Registry.find?] using there
      simp only [Registry.remove, there, Bool.false_eq_true, if_false, false_and]
      split
      · rename_i same
        rw [← same, absent]
      · rfl
  | @release name guard found belongs kept =>
    rw [List.singleton_append, Registry.find?_removeGeneration]
    simp only [entryAt, Event.writes?, Event.removesAt, Event.sweeps, decide_true, Bool.true_and,
      Bool.and_eq_true, decide_eq_true_eq, Bool.false_eq_true, if_false, ← replays]
    by_cases holds : (w.registry d).holds guard.key guard.generation = true
    · simp [Registry.removeGeneration, holds]
    · simp [Registry.removeGeneration, holds]
  | purge named =>
    rw [List.singleton_append, entryAt_of_sweeps (by simp [Event.sweeps]), reached.purge_eq,
      replays]
  | removeNowhere =>
    rw [List.nil_append, reached.placed.find?_remove_nowhere, replays]
  | tooLate gone other generation =>
    rw [List.singleton_append, entryAt_of_keeps rfl (by simp [Event.removesAt]) rfl]
    exact replays
  | nothing => exact replays
  | @sweep p pass found fresh belongs events swept =>
    have counted : entryAt keyOf d key (events ++ w.history) = entryAt keyOf d key w.history := by
      rcases swept with ⟨rfl, -⟩ | ⟨count, rfl⟩ <;> rfl
    rw [List.cons_append, entryAt_of_sweeps (by simp [Event.sweeps]), counted, ← replays,
      reached.purge_eq]
    simp only [reclaimed_of_swept swept]
  | arrange perm => exact ((reached.placed.distinct d).find?_perm perm key).trans replays

theorem Reached.replays {w : World} (reached : w.Reached) {keyOf : HandlerId → Key}
    (keyed : w.KeyedBy keyOf) (d : DispatcherId) (key : Key) :
    (w.registry d).find? key = entryAt keyOf d key w.history := by
  revert keyed
  refine Reached.induction (P := fun w => w.KeyedBy keyOf →
    (w.registry d).find? key = entryAt keyOf d key w.history) ?_ ?_ reached
  · intro arity blueprints keyed
    rw [registry_of_le (by simp)]
    rfl
  · intro w w' reached ih progress keyed
    have step := progress.tableStep
    have before := ih (keyed.of_step step)
    cases step.sight reached.placed.there d with
    | kept same history =>
      obtain ⟨events, later, quiet⟩ := history
      rw [same, later, entryAt_append_of_quiet quiet]
      exact before
    | turned turn after history =>
      obtain ⟨later, history, quiet⟩ := history
      rw [after, history, List.append_assoc, entryAt_append_of_quiet quiet]
      exact turn.replays reached (keyed.of_step step) before

theorem TableTurn.writes {w : World} {d : DispatcherId} {events : List Event}
    {registry : Registry} (turn : TableTurn w d events registry) :
    (∀ e ∈ events, Event.writes? d e = none) ∨
      ∃ event h, events = [event] ∧
        event.writes? d = some ⟨h, (w.registry d).counter + 1⟩ ∧ w.LiesAt h (w.keyOf h) := by
  cases turn with
  | @insert h handler event named found held told =>
    refine .inr ⟨event, h, rfl, ?_, liesAt_of_found found⟩
    rcases told with rfl | rfl <;> simp [Event.writes?]
  | sweep found fresh belongs swept =>
    rcases swept with ⟨rfl, -⟩ | ⟨count, rfl⟩ <;> exact .inl (by simp [Event.writes?])
  | _ => exact .inl (by simp [Event.writes?])

/-- A registration is one of a handler that is there, and carries its position among all
registrations of the dispatcher, as far as generations can tell. -/
theorem Reached.stamped {w : World} (reached : w.Reached) {d : DispatcherId} {event : Event}
    {earlier : List Event} {entry : Registration} (told : event :: earlier <:+ w.history)
    (writes : event.writes? d = some entry) :
    entry.generation.toNat = (inserts d earlier + 1) % 2 ^ 64 ∧
      ∃ key, w.LiesAt entry.handler key := by
  revert told
  refine Reached.induction (P := fun w => event :: earlier <:+ w.history →
    entry.generation.toNat = (inserts d earlier + 1) % 2 ^ 64 ∧
      ∃ key, w.LiesAt entry.handler key) ?_ ?_ reached
  · intro arity blueprints told
    simp at told
  · intro w w' reached ih progress told
    have step := progress.tableStep
    have was : event :: earlier <:+ w.history →
        entry.generation.toNat = (inserts d earlier + 1) % 2 ^ 64 ∧
          ∃ key, w'.LiesAt entry.handler key := fun told =>
      (ih told).imp_right fun ⟨key, lies⟩ => ⟨key, step.lies lies⟩
    cases step.sight reached.placed.there d with
    | kept same history =>
      obtain ⟨events, later, quiet⟩ := history
      rw [later] at told
      exact was (suffix_of_writes writes (fun e he => Event.writes?_of_quiet (quiet e he)) told)
    | turned turn after history =>
      obtain ⟨later, history, quiet⟩ := history
      rw [history, List.append_assoc] at told
      have told := suffix_of_writes writes (fun e he => Event.writes?_of_quiet (quiet e he)) told
      rcases turn.writes with silent | ⟨new, h, rfl, new_writes, lies⟩
      · exact was (suffix_of_writes writes silent told)
      · rw [List.singleton_append] at told
        rcases List.suffix_cons_iff.mp told with same | old
        · obtain ⟨rfl, rfl⟩ := List.cons.inj same
          rw [writes, Option.some.injEq] at new_writes
          rw [new_writes]
          exact ⟨reached.counter_succ d, _, step.lies lies⟩
        · exact was old

end World
end Fanout
