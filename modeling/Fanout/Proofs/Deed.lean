import Fanout.Proofs.Change

/-! Every action is one deed: what the owner of a world or a handler in the middle of a call does at
once is one change, or none if it is refused. -/
namespace Fanout.World

theorem bind_eq_ok {ε α β : Type} {x : Except ε α} {f : α → Except ε β} {b : β}
    (h : (x >>= f) = .ok b) : ∃ a, x = .ok a ∧ f a = .ok b := by
  cases x with
  | error e => simp [bind, Except.bind] at h
  | ok a => exact ⟨a, rfl, h⟩

section
variable {ε α α' β β' : Type} {x : Except ε α} {f : α → Except ε β} {g : β → β'}

@[simp] theorem throw_ne_ok {e : ε} {a : α} : (throw e : Except ε α) ≠ .ok a :=
  fun h => nomatch h

@[simp] theorem pure_eq_ok {a b : α} : (pure a : Except ε α) = .ok b ↔ a = b := by
  simp only [pure, Except.pure, Except.ok.injEq]

theorem ok_map {b : β} {b' : β'} (same : b' = g b) :
    (.ok b' : Except ε β') = (Except.ok b : Except ε β).map g := congrArg Except.ok same

/-- What goes alike after a step goes alike together with it. -/
theorem bind_map {f' : α → Except ε β'} (after : ∀ a, f' a = (f a).map g) :
    (x >>= f') = (x >>= f).map g := by
  cases x with
  | error e => rfl
  | ok a => exact after a

theorem map_bind_map {x' : Except ε α'} {k : α → α'} {f' : α' → Except ε β'} (first : x' = x.map k)
    (after : ∀ a, f' (k a) = (f a).map g) : (x' >>= f') = (x >>= f).map g := by
  subst first
  cases x with
  | error e => rfl
  | ok a => exact after a

end

theorem lookUp_eq_ok_iff {α : Type} {roster : Roster String α} {refusal : Refusal}
    {name : Option String} {n : String} {x : α} :
    lookUp roster refusal name = .ok (n, x) ↔ name = some n ∧ roster.find? n = some x := by
  cases name with
  | none => simp [lookUp, need, bind, Except.bind]
  | some m =>
    cases found : roster.find? m with
    | none =>
      simp only [lookUp, need, bind, Except.bind, found, throw_ne_ok, Option.some.injEq, false_iff]
      rintro ⟨rfl, there⟩
      rw [found] at there
      cases there
    | some y =>
      simp only [lookUp, need, bind, Except.bind, found, pure_eq_ok, Prod.mk.injEq,
        Option.some.injEq]
      constructor
      · rintro ⟨rfl, rfl⟩
        exact ⟨rfl, found⟩
      · rintro ⟨rfl, there⟩
        rw [found] at there
        exact ⟨rfl, Option.some.inj there⟩

theorem lookUp_eq_ok {α : Type} {roster : Roster String α} {refusal : Refusal}
    {name : Option String} {n : String} {x : α} (h : lookUp roster refusal name = .ok (n, x)) :
    roster.find? n = some x := (lookUp_eq_ok_iff.mp h).2

theorem vacant_eq_ok_iff {α : Type} {roster : Roster String α} {name : Option String} {n : String} :
    vacant roster name = .ok n ↔ name = some n ∧ roster.has n = false := by
  cases name with
  | none => simp [vacant, need, bind, Except.bind]
  | some m =>
    cases has : roster.has m <;> simp only [vacant, need, bind, Except.bind, has]
    · simp only [Bool.false_eq_true, if_false, pure_eq_ok, Option.some.injEq]
      exact ⟨fun same => ⟨same, same ▸ has⟩, And.left⟩
    · simp only [if_true, throw_ne_ok, Option.some.injEq, false_iff]
      rintro ⟨rfl, missing⟩
      rw [has] at missing
      cases missing

theorem vacant_eq_ok {α : Type} {roster : Roster String α} {name : Option String} {n : String}
    (h : vacant roster name = .ok n) : roster.find? n = none :=
  (Roster.has_eq_false_iff roster n).mp (vacant_eq_ok_iff.mp h).2

theorem dispatcherCalled_eq_ok_iff {w : World} {name : Option String} {d : DispatcherId} :
    w.dispatcherCalled name = .ok d ↔ ∃ n, name = some n ∧ w.names.find? n = some d := by
  constructor
  · intro called
    obtain ⟨⟨n, e⟩, found, same⟩ := bind_eq_ok called
    cases same
    exact ⟨n, lookUp_eq_ok_iff.mp found⟩
  · rintro ⟨n, called⟩
    simp [dispatcherCalled, lookUp_eq_ok_iff.mpr called, bind, Except.bind]

theorem dispatcherCalled_eq_ok {w : World} {name : Option String} {d : DispatcherId}
    (h : w.dispatcherCalled name = .ok d) : w.Named d := by
  obtain ⟨n, -, found⟩ := dispatcherCalled_eq_ok_iff.mp h
  exact ⟨n, found⟩

theorem handlerOwned_eq_ok_iff {w : World} {name : Option String} {h : HandlerId}
    {handler : Handler} : w.handlerOwned name = .ok (h, handler) ↔
      name = some h ∧ w.handlers.find? h = some handler ∧ handler.owned ≠ 0 := by
  constructor
  · intro shown
    obtain ⟨⟨h', handler'⟩, called, shown⟩ := bind_eq_ok shown
    obtain ⟨named, found⟩ := lookUp_eq_ok_iff.mp called
    by_cases owned : handler'.owned = 0
    · simp [owned] at shown
    · simp only [owned, if_false, pure_eq_ok, Prod.mk.injEq] at shown
      obtain ⟨rfl, rfl⟩ := shown
      exact ⟨named, found, owned⟩
  · rintro ⟨named, found, owned⟩
    have called : w.handlerCalled name = .ok (h, handler) := lookUp_eq_ok_iff.mpr ⟨named, found⟩
    simp [handlerOwned, called, bind, Except.bind, owned]

theorem handlerOwned_eq_ok {w : World} {name : Option String} {h : HandlerId} {handler : Handler}
    (ho : w.handlerOwned name = .ok (h, handler)) :
    w.handlers.find? h = some handler ∧ handler.owned ≠ 0 := (handlerOwned_eq_ok_iff.mp ho).2

/-- What is done to a dispatcher with a handler finds the one named and the other owned. -/
theorem aimed_eq_ok {β : Type} {w : World} {dispatcher name : Option String}
    {act : DispatcherId → HandlerId × Handler → Except Refusal β} {b : β}
    (done : (w.dispatcherCalled dispatcher >>= fun d => w.handlerOwned name >>= act d) = .ok b) :
    ∃ d h handler, w.Named d ∧ w.handlerOwned name = .ok (h, handler) ∧
      w.handlers.find? h = some handler ∧ handler.owned ≠ 0 ∧ act d (h, handler) = .ok b := by
  obtain ⟨d, called, done⟩ := bind_eq_ok done
  obtain ⟨⟨h, handler⟩, shown, done⟩ := bind_eq_ok done
  obtain ⟨found, owned⟩ := handlerOwned_eq_ok shown
  exact ⟨d, h, handler, dispatcherCalled_eq_ok called, shown, found, owned, done⟩

theorem handleCalled_eq_ok_iff {w : World} {handle : Option Handle} {h : HandlerId} :
    w.handleCalled handle = .ok (some h) ↔ handle = some (.of h) ∧
      ∃ handler, w.handlers.find? h = some handler ∧ handler.watched = true := by
  match handle with
  | none => simp [handleCalled]
  | some .empty => simp [handleCalled]
  | some (.of name) =>
    constructor
    · intro shown
      obtain ⟨⟨h', handler⟩, called, shown⟩ := bind_eq_ok shown
      obtain ⟨named, found⟩ := lookUp_eq_ok_iff.mp called
      cases named
      cases watched : handler.watched with
      | false => simp [watched] at shown
      | true =>
        simp only [watched, if_true, pure_eq_ok, Option.some.injEq] at shown
        subst shown
        exact ⟨rfl, handler, found, watched⟩
    · rintro ⟨same, handler, found, watched⟩
      cases same
      have called : w.handlerCalled h = .ok (h, handler) := lookUp_eq_ok_iff.mpr ⟨rfl, found⟩
      simp [handleCalled, called, bind, Except.bind, watched]

/-- A weak handle that can be shown is empty, or belongs to a handler that is watched. -/
theorem handleCalled_eq_ok {w : World} {handle : Option Handle} {called : Option HandlerId}
    (hc : w.handleCalled handle = .ok called) : called = none ∨ ∃ h handler, called = some h ∧
      w.handlers.find? h = some handler ∧ handler.watched = true := by
  cases called with
  | none => exact .inl rfl
  | some h =>
    obtain ⟨-, handler, found⟩ := handleCalled_eq_ok_iff.mp hc
    exact .inr ⟨h, handler, rfl, found⟩

theorem rouse_eq (w : World) (calls : List CallId) :
    ∃ waking, w.rouse calls = w.setWaking waking := by
  induction calls generalizing w with
  | nil => exact ⟨_, rfl⟩
  | cons call callers ih =>
    unfold rouse
    dsimp only
    split
    · split
      · exact ⟨w.waking, rfl⟩
      · split
        · exact ⟨_, rfl⟩
        · obtain ⟨waking, h⟩ := ih (w.setWaking ((w.waking.enqueue [call]).ask call.pass))
          exact ⟨waking, h⟩
    · exact ih w

theorem wake_eq (w : World) (call : CallId) : ∃ waking, w.wake call = w.setWaking waking := by
  unfold wake
  split
  · split
    · exact rouse_eq ..
    · exact ⟨w.waking, rfl⟩
  · exact ⟨w.waking, rfl⟩

theorem signal_eq (w : World) (s : Signal) : ∃ waking, w.signal s = w.setWaking waking := by
  have all : ∀ (calls : List CallId) (v : World),
      ∃ waking, calls.foldl wake v = v.setWaking waking := by
    intro calls
    induction calls with
    | nil => exact fun v => ⟨v.waking, rfl⟩
    | cons call calls ih =>
      intro v
      obtain ⟨waking, h⟩ := wake_eq v call
      obtain ⟨waking', h'⟩ := ih (v.wake call)
      exact ⟨waking', by rw [List.foldl_cons, h', h]; rfl⟩
  obtain ⟨waking, h⟩ := all (w.waking.waiters s) (w.setWaking (w.waking.dismiss s))
  exact ⟨waking, h⟩

namespace Deed

theorem setWaking (w : World) (waking : Waking) : Deed w (w.setWaking waking) :=
  .quiet w.tokens w.cancelled w.openGates w.arrivals waking

theorem nothing (w : World) : Deed w w := setWaking w w.waking

theorem await (w : World) (call : CallId) (token : Token) (await : Await) :
    Deed w (w.await call token await) := by
  unfold World.await
  split
  · exact setWaking w _
  · exact nothing w

theorem cancelToken (w : World) (token : Token) : Deed w (w.cancelToken token) := by
  unfold World.cancelToken
  split
  · exact nothing w
  · obtain ⟨waking, h⟩ := signal_eq { w with cancelled := token :: w.cancelled }
      (.cancellation token)
    exact h ▸ .quiet w.tokens (token :: w.cancelled) w.openGates w.arrivals waking

theorem openGate (w : World) (gate : String) : Deed w (w.openGate gate) := by
  obtain ⟨waking, h⟩ := signal_eq { w with openGates := gate :: w.openGates.filter (· ≠ gate) }
    (.gate gate)
  unfold World.openGate
  rw [h]
  exact .quiet w.tokens w.cancelled (gate :: w.openGates.filter (· ≠ gate)) w.arrivals waking

theorem arriveAt (w : World) (gate : String) : Deed w (w.arriveAt gate) := by
  obtain ⟨waking, h⟩ := signal_eq { w with arrivals := gate :: w.arrivals } (.gate gate)
  unfold World.arriveAt
  rw [h]
  exact .quiet w.tokens w.cancelled w.openGates (gate :: w.arrivals) waking

end Deed

@[simp] theorem registry_setRegistry_self (w : World) (d : DispatcherId) :
    w.setRegistry d (w.registry d) = w := by
  unfold setRegistry registry dispatcher
  have same : w.dispatchers.modify d (fun dispatcher =>
      { dispatcher with registry := ((w.dispatchers[d]?).getD {}).registry }) = w.dispatchers := by
    apply List.ext_getElem?
    intro i
    rw [List.getElem?_modify]
    by_cases h : d = i
    · subst h
      cases hd : w.dispatchers[d]? <;> simp
    · simp [h]
  rw [same]

/-- A weak handle that unregisters does what a strong reference does, or nothing. -/
theorem unregisterWeak_some (w : World) (d : DispatcherId) (h : HandlerId) :
    (w.unregisterWeak d (some h)).1 = (w.unregister d h).1 ∨
      (w.unregisterWeak d (some h)).1 = w ∧ (w.registry d).find? (w.keyOf h) = none := by
  have key : w.handleKey (some h) = w.keyOf h := rfl
  by_cases refused : (w.registry d).entries.has (w.keyOf h) = false ∧ w.alive h = false
  · right
    have absent : (w.registry d).remove (w.keyOf h) = (false, w.registry d) := by
      simp [Registry.remove, refused.1]
    exact ⟨by simp [unregisterWeak, key, absent, handleAlive, refused.2],
      (Roster.has_eq_false_iff ..).mp refused.1⟩
  · left
    have kept : (!((w.registry d).remove (w.keyOf h)).1 && !w.alive h) = false := by
      by_cases has : (w.registry d).entries.has (w.keyOf h) = true
      · simp [Registry.remove, has]
      · simp_all [Registry.remove]
    simp [unregisterWeak, unregister, key, handleAlive, kept]

theorem registerWeak_of_dead {w : World} {handle : Option HandlerId}
    (dead : w.handleAlive handle = false) (d : DispatcherId) :
    w.registerWeak d handle = (w, .error .emptyHandle) := by
  cases handle with
  | none => rfl
  | some h => exact if_neg (by simpa [handleAlive] using dead)

theorem registerWeak_of_alive {w : World} {h : HandlerId} (alive : w.alive h = true)
    (d : DispatcherId) : w.registerWeak d (some h) = (w.register d h, .ok ()) := if_pos alive

/-- A weak handle that registers does what a strong reference does, or nothing. -/
theorem registerWeak_some (w : World) (d : DispatcherId) (h : HandlerId) :
    (w.registerWeak d (some h)).1 = if w.alive h then w.register d h else w := by
  by_cases alive : w.alive h = true <;> simp [registerWeak, register, alive]

theorem setRegistry_remove_nowhere (w : World) (d : DispatcherId) :
    (w.unregisterWeak d none).1 = w.setRegistry d ((w.registry d).remove .nowhere).2 := by
  cases h : (w.registry d).remove .nowhere with
  | mk removed registry => cases removed <;> simp [unregisterWeak, handleKey, handleAlive, h]

theorem Deed.registerWeak {w : World} {d : DispatcherId} {handle : Option Handle}
    {called : Option HandlerId} (named : w.Named d) (hc : w.handleCalled handle = .ok called) :
    Deed w (w.registerWeak d called).1 := by
  rcases handleCalled_eq_ok hc with rfl | ⟨h, handler, rfl, found, watched⟩
  · exact .nothing w
  · rw [registerWeak_some]
    split
    · rename_i alive
      have lives : handler.alive = true := by simpa [World.alive, found] using alive
      exact .register named found (.inr ⟨lives, watched⟩)
    · exact .nothing w

theorem Deed.unregisterWeak {w : World} {d : DispatcherId} {handle : Option Handle}
    {called : Option HandlerId} (named : w.Named d) (hc : w.handleCalled handle = .ok called) :
    Deed w (w.unregisterWeak d called).1 := by
  rcases handleCalled_eq_ok hc with rfl | ⟨h, handler, rfl, found, watched⟩
  · exact .unregisterEmpty d
  · rcases unregisterWeak_some w d h with he | ⟨he, -⟩
    · exact he ▸ .unregister named found (.inr watched)
    · rw [he]
      exact .nothing w

theorem Deed.attempt {w after : World} {action : Action} {answer : Answer}
    (h : w.attempt action = .ok (after, answer)) : Deed w after := by
  cases action with
  | createDispatcher name source =>
    obtain ⟨n, hn, h⟩ := bind_eq_ok h
    cases h
    exact .createDispatcher _ (vacant_eq_ok hn)
  | dropDispatcher name =>
    obtain ⟨⟨n, d⟩, -, h⟩ := bind_eq_ok h
    cases h
    exact .dropDispatcher n
  | createHandler name blueprint wish =>
    obtain ⟨n, hn, h⟩ := bind_eq_ok h
    cases h
    exact .createHandler blueprint wish (vacant_eq_ok hn)
  | clone name =>
    obtain ⟨⟨n, handler⟩, hn, h⟩ := bind_eq_ok h
    cases h
    obtain ⟨found, owned⟩ := handlerOwned_eq_ok hn
    exact .clone found owned
  | drop name =>
    obtain ⟨⟨n, handler⟩, hn, h⟩ := bind_eq_ok h
    cases h
    obtain ⟨found, owned⟩ := handlerOwned_eq_ok hn
    exact .drop found owned
  | forget name =>
    obtain ⟨⟨n, handler⟩, -, h⟩ := bind_eq_ok h
    cases h
    exact .forget n
  | alive handle =>
    obtain ⟨called, -, h⟩ := bind_eq_ok h
    cases h
    exact .nothing w
  | handlerName name =>
    obtain ⟨⟨n, handler⟩, -, h⟩ := bind_eq_ok h
    cases hr : handler.naming.read <;> simp only [hr] at h <;> cases h <;> exact .nothing w
  | rename name newName =>
    obtain ⟨⟨n, handler⟩, -, h⟩ := bind_eq_ok h
    obtain ⟨new, -, h⟩ := bind_eq_ok h
    cases h
    exact .rename n new
  | register d name =>
    obtain ⟨d, n, handler, named, -, found, owned, h⟩ := aimed_eq_ok h
    cases h
    exact .register named found (.inl owned)
  | registerWeak d handle =>
    obtain ⟨d, hd, h⟩ := bind_eq_ok h
    obtain ⟨called, hc, h⟩ := bind_eq_ok h
    cases h
    exact .registerWeak (dispatcherCalled_eq_ok hd) hc
  | unregister d name =>
    obtain ⟨d, n, handler, named, -, found, owned, h⟩ := aimed_eq_ok h
    cases h
    exact .unregister named found (.inl owned)
  | unregisterWeak d handle =>
    obtain ⟨d, hd, h⟩ := bind_eq_ok h
    obtain ⟨called, hc, h⟩ := bind_eq_ok h
    cases h
    exact .unregisterWeak (dispatcherCalled_eq_ok hd) hc
  | subscribe guardName d name =>
    obtain ⟨g, hg, h⟩ := bind_eq_ok h
    obtain ⟨d, n, handler, named, -, found, owned, h⟩ := aimed_eq_ok h
    cases h
    exact .subscribe named found owned (vacant_eq_ok hg)
  | unsubscribe name =>
    obtain ⟨⟨n, guard⟩, hn, h⟩ := bind_eq_ok h
    simp only [unsubscribe_eq] at h
    cases h
    exact .dropGuard (lookUp_eq_ok hn)
  | dropGuard name =>
    obtain ⟨⟨n, guard⟩, hn, h⟩ := bind_eq_ok h
    cases h
    exact .dropGuard (lookUp_eq_ok hn)
  | guardState name =>
    obtain ⟨⟨n, guard⟩, -, h⟩ := bind_eq_ok h
    cases h
    exact .nothing w
  | count name =>
    obtain ⟨d, -, h⟩ := bind_eq_ok h
    cases h
    exact .nothing w
  | purge name =>
    obtain ⟨d, hd, h⟩ := bind_eq_ok h
    cases h
    exact .purge (dispatcherCalled_eq_ok hd)
  | describe name =>
    obtain ⟨d, -, h⟩ := bind_eq_ok h
    cases h
    exact .nothing w
  | createToken name =>
    obtain ⟨n, -, h⟩ := bind_eq_ok h
    split at h <;> cases h
    exact .quiet (n :: w.tokens) w.cancelled w.openGates w.arrivals w.waking
  | cancel name =>
    obtain ⟨token, -, h⟩ := bind_eq_ok h
    cases h
    exact .cancelToken w token
  | cancelled name =>
    obtain ⟨token, -, h⟩ := bind_eq_ok h
    cases h
    exact .nothing w
  | openGate name =>
    obtain ⟨gate, -, h⟩ := bind_eq_ok h
    cases h
    exact .openGate w gate
  | closeGate name =>
    obtain ⟨gate, -, h⟩ := bind_eq_ok h
    cases h
    exact .quiet w.tokens w.cancelled (w.openGates.filter (· ≠ gate)) w.arrivals w.waking
  | stats => cases h; exact .nothing w
  | peak => cases h; exact .nothing w
  | unknown label => cases h

theorem Deed.reorder (w : World) (d : DispatcherId) (order : List (Key × Registration)) :
    Deed w (w.reorder d order) := by
  unfold World.reorder
  split
  · exact .arrange ‹_›
  · exact .nothing w

theorem Deed.perform (w : World) (action : Action) : Deed w (w.perform action).1 := by
  unfold World.perform
  split
  · rename_i h
    exact .attempt h
  · exact .nothing w

end Fanout.World
