import Fanout.Proofs.Guards

/-! Who resides where. A key is an address, which another handler may get as soon as nobody refers
to the first one any more; yet in the registry of a dispatcher that is kept, the entry under a key
is always that of the one handler that resides there. Whatever is done for one handler, be it
through a weak handle to a handler that is gone or through a guard that outlived it, spares the
entries of all others. -/
namespace Fanout
namespace World

/-- The handler has the address of this key, and the address is not free. -/
def Resides (w : World) (h : HandlerId) (key : Key) : Prop :=
  ∃ handler, w.handlers.find? h = some handler ∧ handler.key = key ∧ w.isReserved h handler = true

theorem Resides.keyOf {w : World} {h : HandlerId} {key : Key} (resides : w.Resides h key) :
    w.keyOf h = key := by
  obtain ⟨handler, found, here, -⟩ := resides
  exact LiesAt.keyOf ⟨handler, found, here⟩

/-- The entry under a key is that of the one handler that resides there. -/
theorem Placed.resides_iff {w : World} (placed : w.Placed) {d : DispatcherId}
    (kept : w.keeps d = true) {key : Key} {entry : Registration}
    (found : (w.registry d).find? key = some entry) (h : HandlerId) :
    w.Resides h key ↔ h = entry.handler := by
  constructor
  · rintro ⟨handler, handler_found, here, reserved⟩
    have lies : w.keyOf h = key := LiesAt.keyOf ⟨handler, handler_found, here⟩
    exact ((placed.own kept handler_found reserved key entry found).mpr lies.symm).symm
  · rintro rfl
    obtain ⟨handler, handler_found, here⟩ := placed.at_home d key entry found
    have member := Roster.mem_of_lookup found
    exact ⟨handler, handler_found, here,
      (isReserved_iff ..).mpr (.inr (.inr ⟨d, lt_of_entry member, kept, _, member, rfl⟩))⟩

/-- A new handler is never put where another resides. -/
theorem createHandler_apart {w : World} {h other : HandlerId} {key : Key}
    (resides : w.Resides other key) (blueprint : Nat) (wish : Option Nat) :
    (w.createHandler h blueprint wish).keyOf h ≠ key := by
  obtain ⟨handler, found, rfl, reserved⟩ := resides
  have apart := addressFor_ne found reserved wish
  have made : (w.createHandler h blueprint wish).keyOf h = .place (w.addressFor wish) := by
    simp [World.keyOf, createHandler, Roster.find?_put, Handler.ofBlueprint, Handler.key]
  rw [made]
  simpa [Handler.key] using apart.symm

/-- Every entry of a kept dispatcher is still there that is not the subject's own. -/
def Spares (w : World) (subject : Option HandlerId) (w' : World) : Prop :=
  ∀ d key entry, w.keeps d = true → (w.registry d).find? key = some entry →
    subject ≠ some entry.handler → (w'.registry d).find? key = some entry

section
variable {w w' : World} {subject : Option HandlerId}

theorem spares_of_registries (same : ∀ d, w'.registry d = w.registry d) : w.Spares subject w' :=
  fun d _ _ _ found _ => (same d).symm ▸ found

theorem spares_of_dispatchers (same : w'.dispatchers = w.dispatchers) : w.Spares subject w' :=
  spares_of_registries (registry_of_dispatchers same)

/-- Only what stands under the key of one handler is written. -/
theorem Placed.find?_elsewhere (placed : w.Placed) {d : DispatcherId} (kept : w.keeps d = true)
    {h : HandlerId} {handler : Handler} (found : w.handlers.find? h = some handler)
    (reserved : w.isReserved h handler = true) {registry : Registry}
    (elsewhere : ∀ key, w.keyOf h ≠ key → registry.find? key = (w.registry d).find? key)
    {e : DispatcherId} {key : Key} {entry : Registration}
    (at_key : (w.registry e).find? key = some entry) (other : d = e → entry.handler ≠ h) :
    ((w.setRegistry d registry).registry e).find? key = some entry := by
  by_cases same : d = e
  · subst same
    rw [registry_setRegistry w (lt_of_entry (Roster.mem_of_lookup at_key)), elsewhere]
    · exact at_key
    · exact fun own => other rfl ((placed.own kept found reserved key entry at_key).mpr own.symm)
  · rw [registry_setRegistry_of_ne w same]
    exact at_key

theorem Placed.spares_write (placed : w.Placed) {d : DispatcherId} (kept : w.keeps d = true)
    {h : HandlerId} {handler : Handler} (found : w.handlers.find? h = some handler)
    (reserved : w.isReserved h handler = true) (registry : Registry)
    (elsewhere : ∀ key, w.keyOf h ≠ key → registry.find? key = (w.registry d).find? key)
    (after : w'.dispatchers = (w.setRegistry d registry).dispatchers) :
    w.Spares (some h) w' := by
  intro e key entry _ at_key other
  rw [registry_of_dispatchers after]
  exact placed.find?_elsewhere kept found reserved elsewhere at_key fun _ own =>
    other (congrArg some own.symm)

theorem Placed.spares_insert (placed : w.Placed) {d : DispatcherId} (kept : w.keeps d = true)
    {h : HandlerId} {handler : Handler} (found : w.handlers.find? h = some handler)
    (alive : handler.alive = true) (after : w'.dispatchers = (w.insert d h).2.dispatchers) :
    w.Spares (some h) w' := by
  refine placed.spares_write kept found ((isReserved_iff ..).mpr (.inl alive))
    ((w.registry d).insert (w.keyOf h) h).2 ?_ after
  intro key other
  rw [Registry.find?_insert, if_neg other]

theorem Placed.spares_remove (placed : w.Placed) {d : DispatcherId} (kept : w.keeps d = true)
    {h : HandlerId} {handler : Handler} (found : w.handlers.find? h = some handler)
    (reserved : w.isReserved h handler = true) : w.Spares (some h) (w.unregister d h).1 := by
  refine placed.spares_write kept found reserved ((w.registry d).remove (w.keyOf h)).2 ?_ rfl
  intro key other
  rw [Registry.find?_remove, if_neg other]

theorem Placed.spares_removeNowhere (placed : w.Placed) (d : DispatcherId) :
    w.Spares subject (w.unregisterWeak d none).1 := by
  rw [setRegistry_remove_nowhere]
  intro e key entry _ found _
  by_cases same : d = e
  · subst same
    rw [registry_setRegistry w (lt_of_entry (Roster.mem_of_lookup found)),
      placed.find?_remove_nowhere]
    exact found
  · rw [registry_setRegistry_of_ne w same]
    exact found

end

/-- The action registers or unregisters the handler, or nobody if the handle is empty. -/
inductive Concerns : Action → Option HandlerId → Prop
  | register (d : Option String) (h : HandlerId) : Concerns (.register d (some h)) (some h)
  | registerWeak (d : Option String) (h : HandlerId) :
      Concerns (.registerWeak d (some (.of h))) (some h)
  | registerEmpty (d : Option String) : Concerns (.registerWeak d (some .empty)) none
  | unregister (d : Option String) (h : HandlerId) : Concerns (.unregister d (some h)) (some h)
  | unregisterWeak (d : Option String) (h : HandlerId) :
      Concerns (.unregisterWeak d (some (.of h))) (some h)
  | unregisterEmpty (d : Option String) : Concerns (.unregisterWeak d (some .empty)) none
  | subscribe (guard d : Option String) (h : HandlerId) :
      Concerns (.subscribe guard d (some h)) (some h)

theorem lookUp_some_eq_ok {α : Type} {roster : Roster String α} {refusal : Refusal}
    {name n : String} {x : α} (h : lookUp roster refusal (some name) = .ok (n, x)) : n = name := by
  cases found : roster.find? name with
  | none => simp [lookUp, need, found, bind, Except.bind] at h
  | some y =>
    simp only [lookUp, need, found, bind, Except.bind, pure_eq_ok, Prod.mk.injEq] at h
    exact h.1.symm

theorem handlerOwned_some_eq_ok {w : World} {name h : HandlerId} {handler : Handler}
    (ho : w.handlerOwned (some name) = .ok (h, handler)) : h = name := by
  obtain ⟨⟨h', handler'⟩, called, ho⟩ := bind_eq_ok ho
  by_cases owned : handler'.owned = 0
  · simp [owned] at ho
  · simp only [owned, if_false, pure_eq_ok, Prod.mk.injEq] at ho
    exact ho.1 ▸ lookUp_some_eq_ok called

theorem handleCalled_of_eq_ok {w : World} {name : HandlerId} {called : Option HandlerId}
    (hc : w.handleCalled (some (.of name)) = .ok called) : called = some name := by
  obtain ⟨⟨h, handler⟩, found, hc⟩ := bind_eq_ok hc
  cases watched : handler.watched with
  | false => simp [watched] at hc
  | true =>
    simp only [watched, if_true, pure_eq_ok] at hc
    exact hc ▸ congrArg some (lookUp_some_eq_ok found)

theorem Reached.spares_registerWeak {w : World} (reached : w.Reached) {d : DispatcherId}
    (kept : w.keeps d = true) (h : HandlerId) :
    w.Spares (some h) (w.registerWeak d (some h)).1 := by
  rw [registerWeak_some]
  split
  · rename_i alive
    obtain ⟨handler, found⟩ := known_of_alive alive
    have lives : handler.alive = true := by simpa [World.alive, found] using alive
    exact reached.placed.spares_insert kept found lives rfl
  · exact spares_of_dispatchers rfl

theorem Reached.spares_unregisterWeak {w : World} (reached : w.Reached) {d : DispatcherId}
    (kept : w.keeps d = true) {h : HandlerId} {handler : Handler}
    (found : w.handlers.find? h = some handler) (watched : handler.watched = true) :
    w.Spares (some h) (w.unregisterWeak d (some h)).1 := by
  rcases unregisterWeak_some w d h with removed | ⟨refused, -⟩
  · rw [removed]
    exact reached.placed.spares_remove kept found ((isReserved_iff ..).mpr (.inr (.inl watched)))
  · rw [refused]
    exact spares_of_dispatchers rfl

/-- What is done for one handler spares the entries of all others. -/
theorem Reached.spares_attempt {w after : World} (reached : w.Reached) {action : Action}
    {subject : Option HandlerId} {answer : Answer} (concerns : Concerns action subject)
    (done : w.attempt action = .ok (after, answer)) : w.Spares subject after := by
  cases concerns with
  | register d h =>
    obtain ⟨d, n, handler, named, shown, found, owned, done⟩ := aimed_eq_ok done
    cases done
    obtain rfl := handlerOwned_some_eq_ok shown
    exact reached.placed.spares_insert (keeps_of_named named) found
      (reached.balanced.alive_of_owned found owned) rfl
  | registerWeak d h =>
    obtain ⟨d, hd, done⟩ := bind_eq_ok done
    obtain ⟨called, hc, done⟩ := bind_eq_ok done
    cases done
    rw [handleCalled_of_eq_ok hc]
    exact reached.spares_registerWeak (keeps_of_named (dispatcherCalled_eq_ok hd)) h
  | registerEmpty d =>
    obtain ⟨d, hd, done⟩ := bind_eq_ok done
    cases done
    exact spares_of_dispatchers rfl
  | unregister d h =>
    obtain ⟨d, n, handler, named, shown, found, owned, done⟩ := aimed_eq_ok done
    cases done
    obtain rfl := handlerOwned_some_eq_ok shown
    exact reached.placed.spares_remove (keeps_of_named named) found
      ((isReserved_iff ..).mpr (.inl (reached.balanced.alive_of_owned found owned)))
  | unregisterWeak d h =>
    obtain ⟨d, hd, done⟩ := bind_eq_ok done
    obtain ⟨called, hc, done⟩ := bind_eq_ok done
    cases done
    have this := handleCalled_of_eq_ok hc
    subst this
    obtain none_called | ⟨h', handler, same, found, watched⟩ := handleCalled_eq_ok hc
    · cases none_called
    · cases same
      exact reached.spares_unregisterWeak (keeps_of_named (dispatcherCalled_eq_ok hd)) found watched
  | unregisterEmpty d =>
    obtain ⟨d, hd, done⟩ := bind_eq_ok done
    cases done
    exact reached.placed.spares_removeNowhere d
  | subscribe guard d h =>
    obtain ⟨g, -, done⟩ := bind_eq_ok done
    obtain ⟨d, n, handler, named, shown, found, owned, done⟩ := aimed_eq_ok done
    cases done
    obtain rfl := handlerOwned_some_eq_ok shown
    exact reached.placed.spares_insert (keeps_of_named named) found
      (reached.balanced.alive_of_owned found owned) rfl

theorem Reached.spares_perform {w : World} (reached : w.Reached) {action : Action}
    {subject : Option HandlerId} (concerns : Concerns action subject) :
    w.Spares subject (w.perform action).1 := by
  unfold perform
  split
  · rename_i done
    exact reached.spares_attempt concerns done
  · exact spares_of_dispatchers rfl

/-- Letting a guard go spares the entries of all handlers but the one that it was given out for. -/
theorem Reached.spares_dropGuard {w : World} (reached : w.Reached) {d : DispatcherId}
    {h : HandlerId} {generation : UInt64} {since earlier : List Event}
    (made : w.history = since ++ .subscribed d h generation :: earlier)
    (bound : inserts d since < 2 ^ 64) :
    w.Spares (some h) (w.dropGuard ⟨some d, w.keyOf h, generation⟩) := by
  intro e key entry _ found other
  rw [registry_dropGuard]
  split
  · rename_i active
    obtain ⟨active, same⟩ := active
    cases same
    have undisturbed :=
      ((reached.isActive_iff_undisturbed w.keyedBy_keyOf made bound).mp active).2
    have own := reached.find?_of_undisturbed w.keyedBy_keyOf made undisturbed
    rw [Registry.find?_removeGeneration, if_neg, found]
    rintro ⟨rfl, -⟩
    rw [found, Option.some.injEq] at own
    exact other (own ▸ rfl)
  · exact found

theorem registry_perform_release {w : World} {name : String} {guard : Guard}
    (found : w.guards.find? name = some guard) (d : DispatcherId) :
    (w.perform (.unsubscribe (some name))).1.registry d = (w.dropGuard guard).registry d ∧
      (w.perform (.dropGuard (some name))).1.registry d = (w.dropGuard guard).registry d := by
  constructor
  · simp only [perform, attempt, lookUp, need, found, bind, Except.bind, pure, Except.pure,
      unsubscribe_eq]
    rfl
  · simp only [perform, attempt, lookUp, need, found, bind, Except.bind, pure, Except.pure]
    rfl

end World

/-- In every run, no two handlers are ever confused, although addresses are used again. Releasing a
guard is bound to fewer registrations since it was given out than there are generations. -/
theorem keys_never_confuse (arity : Arity) (blueprints : List Blueprint) (moves : List Move) :
    let w := ((Machine.idle arity blueprints).run moves).world
    (∀ d key entry, w.keeps d = true → (w.registry d).find? key = some entry →
      ∀ h, w.Resides h key ↔ h = entry.handler) ∧
    (∀ h blueprint wish other key, w.Resides other key →
      (w.createHandler h blueprint wish).keyOf h ≠ key) ∧
    (∀ action subject, World.Concerns action subject →
      w.Spares subject (w.perform action).1) ∧
    ∀ name guard, w.guards.find? name = some guard → ∃ d h since earlier,
      guard = ⟨some d, w.keyOf h, guard.generation⟩ ∧
      w.history = since ++ .subscribed d h guard.generation :: earlier ∧
      (inserts d since < 2 ^ 64 →
        w.Spares (some h) (w.perform (.unsubscribe (some name))).1 ∧
        w.Spares (some h) (w.perform (.dropGuard (some name))).1) := by
  intro w
  have reached : w.Reached := Machine.run_reached arity blueprints moves
  refine ⟨fun d key entry kept found => reached.placed.resides_iff kept found,
    fun h blueprint wish other key resides => World.createHandler_apart resides blueprint wish,
    fun action subject => reached.spares_perform, fun name guard found => ?_⟩
  obtain ⟨d, h, since, earlier, belongs, lies, made⟩ := reached.given name guard found
  have this : guard = ⟨some d, w.keyOf h, guard.generation⟩ := by rw [lies.keyOf, ← belongs]
  refine ⟨d, h, since, earlier, this, made, fun bound => ?_⟩
  have spares := reached.spares_dropGuard made bound
  rw [← this] at spares
  constructor
  · intro e key entry kept at_key other
    rw [(World.registry_perform_release found e).1]
    exact spares e key entry kept at_key other
  · intro e key entry kept at_key other
    rw [(World.registry_perform_release found e).2]
    exact spares e key entry kept at_key other

/-- The guard of a handler that is gone spares the one that got its address. -/
theorem keys_never_confuse_reused :
    let w := ((Machine.idle .simple [{}]).run reusedMoves).world
    (w.guards.find? "f").map Guard.key = some (.place 7) ∧ w.keyOf "a" = .place 7 ∧
    (∀ h, w.Resides h (.place 7) ↔ h = "b") ∧
    ((w.perform (.unsubscribe (some "f"))).1.registry 0).find? (.place 7) = some ⟨"b", 2⟩ := by
  intro w
  obtain ⟨own, -, -, given⟩ := keys_never_confuse .simple [{}] reusedMoves
  have kept : w.keeps 0 = true := by decide +kernel
  have entry : (w.registry 0).find? (.place 7) = some ⟨"b", 2⟩ := by decide +kernel
  refine ⟨by decide +kernel, by decide +kernel, own 0 _ _ kept entry, ?_⟩
  obtain ⟨d, h, since, earlier, guard, made, spares⟩ :=
    given "f" ⟨some 0, .place 7, 1⟩ (by decide +kernel)
  have told : w.history =
      [.subscribed 0 "b" 2, .purged 0 none 1, .reclaimed "a", .subscribed 0 "a" 1] := by
    decide +kernel
  have member : .subscribed d h 1 ∈ w.history := made ▸ List.mem_append_right _ List.mem_cons_self
  obtain ⟨rfl, rfl⟩ : d = 0 ∧ h = "a" := by simpa [told] using member
  have bound : inserts 0 since < 2 ^ 64 := by
    have few : inserts 0 w.history = 2 := by decide +kernel
    rw [made, World.inserts_append] at few
    omega
  exact (spares bound).1 0 _ _ kept entry (by decide)

end Fanout
