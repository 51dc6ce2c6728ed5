import Fanout.Proofs.Solitude

/-! Limits and orders are a matter of scheduling. Which of its calls a pass begins first, and how
many may run at once, decides how they take turns; but if the handlers are independent, the calls
are the same, and so is what becomes of them, of the pass, and of the registries. -/
namespace Fanout

namespace World
variable {w : World} {d : DispatcherId} {order : List (Key × Registration)} {limit : Nat}

def setLimit (w : World) (d : DispatcherId) (limit : Nat) : World :=
  { w with dispatchers := w.dispatchers.modify d fun dispatcher =>
      { dispatcher with settings := { dispatcher.settings with maxConcurrent := limit } } }

/-- The same world, in which a registry is gone through in this order, and under this limit. -/
def vary (w : World) (d : DispatcherId) (order : List (Key × Registration)) (limit : Nat) : World :=
  (w.arrange d order).setLimit d limit

theorem registry_setLimit (w : World) (d e : DispatcherId) (limit : Nat) :
    (w.setLimit d limit).registry e = w.registry e := by
  unfold registry dispatcher setLimit
  rw [List.getElem?_modify]
  split
  · cases w.dispatchers[e]? <;> rfl
  · cases w.dispatchers[e]? <;> rfl

theorem isolatePanics_setLimit (w : World) (d e : DispatcherId) (limit : Nat) :
    ((w.setLimit d limit).settings e).isolatePanics = (w.settings e).isolatePanics := by
  unfold settings dispatcher setLimit
  rw [List.getElem?_modify]
  split
  · cases w.dispatchers[e]? <;> rfl
  · cases w.dispatchers[e]? <;> rfl

theorem registry_vary (there : d < w.dispatchers.length) (order : List (Key × Registration))
    (limit : Nat) (e : DispatcherId) : (w.vary d order limit).registry e =
      if e = d then { w.registry d with entries := ⟨order⟩ } else w.registry e := by
  refine (registry_setLimit ..).trans ?_
  by_cases same : e = d
  · subst same
    rw [registry_arrange there, if_pos rfl]
  · rw [registry_arrange_of_ne (Ne.symm same), if_neg same]

theorem live_vary (there : d < w.dispatchers.length) (order : List (Key × Registration))
    (limit : Nat) : ((w.vary d order limit).snapshotOf d).live =
      (order.filter fun e => w.alive e.2.handler).map (·.2.handler) := by
  rw [snapshotOf, Registry.live_snapshot, registry_vary there, if_pos rfl]
  rfl

theorem parts_vary (there : d < w.dispatchers.length) (order : List (Key × Registration))
    (limit : Nat) : (w.vary d order limit).parts d =
      ((order.filter fun e => w.alive e.2.handler).map (·.2.handler)).filterMap w.partOf? := by
  unfold parts
  rw [live_vary there]
  rfl

/-- A pass shows the same handlers alive, in another order. -/
theorem live_vary_perm (there : d < w.dispatchers.length)
    (perm : order.Perm (w.registry d).entries.entries) (limit : Nat) :
    ((w.vary d order limit).snapshotOf d).live.Perm (w.snapshotOf d).live := by
  rw [live_vary there, snapshotOf, Registry.live_snapshot]
  exact (perm.filter _).map _

theorem Solitary.vary {pass : Pass} (solitary : w.Solitary pass)
    (there : pass.dispatcher < w.dispatchers.length)
    (perm : order.Perm (w.registry pass.dispatcher).entries.entries) (limit : Nat) :
    (w.vary pass.dispatcher order limit).Solitary pass := by
  have same : ∀ handler ∈ (w.vary pass.dispatcher order limit).callees pass.dispatcher,
      handler ∈ w.callees pass.dispatcher :=
    fun handler => ((live_vary_perm there perm limit).filterMap _).mem_iff.mp
  refine ⟨fun handler member => solitary.independent handler (same handler member),
    fun handler member => solitary.named handler (same handler member), ?_⟩
  refine solitary.contained.imp (fun isolated => ?_) fun none_panics handler member =>
    none_panics handler (same handler member)
  unfold World.vary arrange
  rwa [isolatePanics_setLimit, settings_setRegistry]

/-- What is left in the registries after a pass in the varied world. -/
theorem registry_after {pass : Pass} (there : pass.dispatcher < w.dispatchers.length) {after : World}
    (dispatchers : after.dispatchers = ((w.vary pass.dispatcher order limit).setRegistry
      pass.dispatcher (((w.vary pass.dispatcher order limit).registry pass.dispatcher).purge
        w.alive).2).dispatchers) (e : DispatcherId) :
    after.registry e = if e = pass.dispatcher then
      { w.registry pass.dispatcher with
        entries := ⟨order.filter fun e => w.alive e.2.handler⟩ }
    else w.registry e := by
  have inside : pass.dispatcher < (w.vary pass.dispatcher order limit).dispatchers.length := by
    simpa [World.vary, arrange, setLimit, setRegistry] using there
  rw [registry_of_dispatchers dispatchers]
  by_cases same : e = pass.dispatcher
  · subst same
    rw [registry_setRegistry _ inside, registry_vary there, if_pos rfl, if_pos rfl]
    rfl
  · rw [registry_setRegistry_of_ne _ (Ne.symm same), registry_vary there, if_neg same, if_neg same]

end World

/-- Two reports that differ in the order of the failures at most. -/
def SameReport : Option DispatchError → Option DispatchError → Prop
  | none, none => True
  | some (.handlersFailed total failures), some (.handlersFailed total' failures') =>
      total = total' ∧ failures.Perm failures'
  | _, _ => False

/-- The registries hold the same registrations, in whatever order. -/
structure Registry.Same (a b : Registry) : Prop where
  counter : a.counter = b.counter
  entries : a.entries.entries.Perm b.entries.entries
  find? : ∀ key, a.find? key = b.find? key

/-- All handlers are in the same state, and have left the same traces. -/
def World.SameHandlers (a b : World) : Prop :=
  ∀ h, a.handlers.find? h = b.handlers.find? h ∧ a.tracesOf h = b.tracesOf h

def World.callsOf (w : World) (p : PassId) : Option (List Call) :=
  (w.passes[p]?).map Pass.calls

theorem SameReport.of_calls {pass pass' : Pass} (same : pass.calls.Perm pass'.calls) :
    SameReport pass.error? pass'.error? := by
  have failures : pass.failures.Perm pass'.failures := same.filterMap _
  unfold Pass.error?
  by_cases none_failed : pass.failures = []
  · have none_failed' : pass'.failures = [] := (none_failed ▸ failures).nil_eq.symm
    rw [if_pos none_failed, if_pos none_failed']
    trivial
  · have some_failed : pass'.failures ≠ [] := fun empty =>
      none_failed (empty ▸ failures).eq_nil
    rw [if_neg none_failed, if_neg some_failed]
    exact ⟨same.length_eq, failures⟩

theorem SameReport.none_iff {error error' : Option DispatchError} (same : SameReport error error') :
    error = none ↔ error' = none := by
  unfold SameReport at same
  split at same <;> simp_all

theorem Registry.Same.of_perm {a b : Registry} (distinct : a.entries.Distinct)
    (counter : a.counter = b.counter) (perm : a.entries.entries.Perm b.entries.entries) :
    a.Same b :=
  ⟨counter, perm, fun key => (distinct.find?_perm perm.symm key).symm⟩

namespace Solo
variable {s t : Solo}

/-- The calls of two passes end in the same way if they are the same calls of the same event. -/
theorem calls_perm (parts : s.parts.Perm t.parts) (occasion : s.occasion = t.occasion)
    (cancelled : s.cancelled = t.cancelled) : s.calls.Perm t.calls := by
  have same : s.verdict = t.verdict := by
    funext part
    rw [verdict, verdict, occasion, cancelled]
  unfold calls
  rw [same]
  exact parts.map _

theorem Completed.sameHandlers {a b : World} (first : s.Completed a) (second : t.Completed b)
    (parts : s.parts.Perm t.parts) (occasion : s.occasion = t.occasion)
    (cancelled : s.cancelled = t.cancelled) (handlers : s.before.handlers = t.before.handlers)
    (history : s.before.history = t.before.history) : a.SameHandlers b := by
  have traces : ∀ h, s.before.tracesOf h = t.before.tracesOf h := by
    intro h
    rw [World.tracesOf, World.tracesOf, history]
  have telling : s.telling = t.telling := by
    funext part
    simp only [Solo.telling, notes, last, verdict, occasion, cancelled]
  intro h
  by_cases inside : h ∈ s.parts.map Part.handler
  · obtain ⟨part, member, rfl⟩ := List.mem_map.mp inside
    have member' := parts.mem_iff.mp member
    rw [first.handlers part member, second.handlers part member', first.traces part member,
      second.traces part member', traces, telling]
    exact ⟨rfl, rfl⟩
  · have outside : h ∉ t.parts.map Part.handler := fun member =>
      inside ((parts.map Part.handler).mem_iff.mpr member)
    obtain ⟨same, silent⟩ := first.others h inside
    obtain ⟨same', silent'⟩ := second.others h outside
    rw [same, same', silent, silent', handlers, traces]
    exact ⟨rfl, rfl⟩

theorem Completed.callsOf {a : World} (completed : s.Completed a) :
    a.callsOf s.pass = some s.calls := by
  obtain ⟨permits, found⟩ := completed.found
  rw [World.callsOf, found]
  rfl

theorem error?_of_calls (calls : s.calls = t.calls) : s.error? = t.error? := by
  unfold error? Pass.error? Pass.failures
  rw [calls]

/-- This is the pass of the world, going through the registry in this order. -/
structure Plays (s : Solo) (w : World) (p : PassId) (pass : Pass)
    (order : List (Key × Registration)) : Prop where
  number : s.pass = p
  handlers : s.before.handlers = w.handlers
  history : s.before.history = w.history
  occasion : s.occasion = pass.occasion
  cancelled : s.cancelled = w.isCancelled pass.token
  parts : s.parts =
    ((order.filter fun e => w.alive e.2.handler).map (·.2.handler)).filterMap w.partOf?

section
variable {w : World} {p : PassId} {pass : Pass} {first second : List (Key × Registration)}
  (plays : s.Plays w p pass first) (plays' : t.Plays w p pass second)
include plays plays'

theorem Plays.parts_perm (perm : first.Perm second) : s.parts.Perm t.parts := by
  rw [plays.parts, plays'.parts]
  exact ((perm.filter _).map _).filterMap _

theorem Plays.calls_perm (perm : first.Perm second) : s.calls.Perm t.calls :=
  Solo.calls_perm (plays.parts_perm plays' perm) (plays.occasion.trans plays'.occasion.symm)
    (plays.cancelled.trans plays'.cancelled.symm)

theorem Plays.sameHandlers (perm : first.Perm second) {a b : World} (completed : s.Completed a)
    (completed' : t.Completed b) : a.SameHandlers b :=
  completed.sameHandlers completed' (plays.parts_perm plays' perm)
    (plays.occasion.trans plays'.occasion.symm) (plays.cancelled.trans plays'.cancelled.symm)
    (plays.handlers.trans plays'.handlers.symm) (plays.history.trans plays'.history.symm)

end

/-- In one and the same order, the calls are the same in that order. -/
theorem Plays.calls_eq {w : World} {p : PassId} {pass : Pass} {order : List (Key × Registration)}
    (plays : s.Plays w p pass order) (plays' : t.Plays w p pass order) : s.calls = t.calls := by
  have parts : s.parts = t.parts := plays.parts.trans plays'.parts.symm
  have verdict : s.verdict = t.verdict := by
    funext part
    rw [Solo.verdict, Solo.verdict, plays.occasion, plays'.occasion, plays.cancelled,
      plays'.cancelled]
  unfold calls
  rw [parts, verdict]

end Solo

namespace World
variable {w : World} {p : PassId} {pass : Pass} {order : List (Key × Registration)}

/-- Whatever the order and the limit are, the pass is over when it is polled, and it is known what
has become of its calls and of the registries. -/
theorem Reached.vary_polled (reached : w.Reached) (found : w.passes[p]? = some pass)
    (fresh : pass.phase = .fresh) (outermost : pass.lineage = []) (solitary : w.Solitary pass)
    (perm : order.Perm (w.registry pass.dispatcher).entries.entries) (limit : Nat) :
    ∃ (s : Solo) (enough : Nat) (after : World), s.Plays w p pass order ∧
      (∀ fuel, enough ≤ fuel → (w.vary pass.dispatcher order limit).poll? fuel p =
        some (after, some (.completed s.error?))) ∧
      s.Completed after ∧ ∀ d, after.registry d = if d = pass.dispatcher then
          { w.registry pass.dispatcher with
            entries := ⟨order.filter fun e => w.alive e.2.handler⟩ }
        else w.registry d := by
  have there := reached.belongs found
  have varied := solitary.vary there perm limit
  have distinct : ((w.vary pass.dispatcher order limit).snapshotOf pass.dispatcher).live.Nodup :=
    (live_vary_perm there perm limit).nodup_iff.mpr
      (snapshot_live_nodup reached.placed pass.dispatcher)
  obtain ⟨enough, after, polled, completed⟩ :=
    varied.polled found fresh outermost (reached.recorded.sound p pass found) distinct
  refine ⟨varied.course p distinct, enough, after, ?_, polled, completed,
    registry_after there completed.dispatchers⟩
  exact ⟨rfl, rfl, rfl, rfl, rfl, parts_vary there order limit⟩

end World

/-- The limit of a dispatcher is a matter of scheduling only. A pass of independent handlers is over
when it is polled, under any limit and in any order; and under any limit it reports the same as
without one, its calls are the same and end in the same way, and it leaves the same registries. -/
theorem limit_only_schedules (arity : Arity) (blueprints : List Blueprint) (moves : List Move) :
    let w := ((Machine.idle arity blueprints).run moves).world
    ∀ (p : PassId) (pass : Pass) (order : List (Key × Registration)) (limit : Nat),
      w.passes[p]? = some pass → pass.phase = .fresh → pass.lineage = [] → w.Solitary pass →
      order.Perm (w.registry pass.dispatcher).entries.entries →
      ∃ (enough : Nat) (free limited : World) (error : Option DispatchError) (calls : List Call),
        (∀ fuel, enough ≤ fuel →
          (w.vary pass.dispatcher order 0).poll? fuel p = some (free, some (.completed error)) ∧
          (w.vary pass.dispatcher order limit).poll? fuel p =
            some (limited, some (.completed error))) ∧
        free.callsOf p = some calls ∧ limited.callsOf p = some calls ∧
        free.SameHandlers limited ∧ ∀ d, free.registry d = limited.registry d := by
  intro w p pass order limit found fresh outermost solitary perm
  have reached : w.Reached :=
    (Machine.run_steady (Machine.steady_idle arity blueprints) moves).2.reached
  obtain ⟨s, enough, free, plays, polled, completed, registries⟩ :=
    reached.vary_polled found fresh outermost solitary perm 0
  obtain ⟨t, enough', limited, plays', polled', completed', registries'⟩ :=
    reached.vary_polled found fresh outermost solitary perm limit
  have calls := plays.calls_eq plays'
  refine ⟨max enough enough', free, limited, s.error?, s.calls, fun fuel bound => ⟨?_, ?_⟩, ?_, ?_,
    plays.sameHandlers plays' (.refl order) completed completed', fun d => ?_⟩
  · exact polled fuel (le_of_max_le_left bound)
  · rw [Solo.error?_of_calls calls]
    exact polled' fuel (le_of_max_le_right bound)
  · exact plays.number ▸ completed.callsOf
  · rw [calls]
    exact plays'.number ▸ completed'.callsOf
  · rw [registries, registries']

/-- One handler fails after a while, one panics at once, and one has nothing to do. -/
def trioBlueprints : List Blueprint :=
  [{ scripts := [[.linger 2, .fail (.failed "late")]] },
    { scripts := [[.say "no", .panic (.fixed "boom")]] }, {}]

/-- They are registered, together with one that is dropped, and an event is raised. -/
def trioMoves : List Move :=
  [.act (.createDispatcher (some "d") .usual),
    .act (.createHandler (some "a") 0 none), .act (.createHandler (some "b") 1 none),
    .act (.createHandler (some "c") 2 none), .act (.createHandler (some "z") 2 none),
    .act (.register (some "d") (some "a")), .act (.register (some "d") (some "b")),
    .act (.register (some "d") (some "c")), .act (.register (some "d") (some "z")),
    .act (.drop (some "z")), .start { dispatcher := some "d" }]

def trioWorld : World := ((Machine.idle .simple trioBlueprints).run trioMoves).world

def trioPass : Pass := { dispatcher := 0, token := .own 0, occasion := {} }

/-- What the pass reports, in the order of the registry. -/
def trioFailed : DispatchError :=
  .handlersFailed 3 [⟨"a", .failed "late"⟩, ⟨"b", .panicked "boom"⟩]

/-- If the calls have to take turns, the pass reports what it does when they need not. -/
theorem limit_only_schedules_trio :
    trioWorld.passes[0]? = some trioPass ∧ trioWorld.Solitary trioPass ∧
      ∃ enough limited, (∀ fuel, enough ≤ fuel →
        (trioWorld.vary 0 (trioWorld.registry 0).entries.entries 1).poll? fuel 0 =
          some (limited, some (.completed (some trioFailed)))) ∧
        (limited.registry 0).size = 3 := by
  have found : trioWorld.passes[0]? = some trioPass := by decide +kernel
  have solitary : trioWorld.Solitary trioPass :=
    ⟨by decide +kernel, by decide +kernel, .inl (by decide +kernel)⟩
  obtain ⟨enough, free, limited, error, calls, polled, -, -, -, registries⟩ :=
    limit_only_schedules .simple trioBlueprints trioMoves 0 trioPass
      (trioWorld.registry 0).entries.entries 1 found rfl rfl solitary (.refl _)
  have known : ((trioWorld.vary 0 (trioWorld.registry 0).entries.entries 0).poll? 40 0).map
      (fun after => (after.2, (after.1.registry 0).size)) =
        some (some (.completed (some trioFailed)), 3) := by decide +kernel
  obtain ⟨⟨after, ending⟩, poll, fields⟩ := Option.map_eq_some_iff.mp known
  obtain ⟨rfl, size⟩ := Prod.mk.inj fields
  have late := World.poll?_of_le poll (le_max_right enough 40)
  have same := late.symm.trans (polled _ (le_max_left enough 40)).1
  rw [Option.some.injEq, Prod.mk.injEq] at same
  obtain ⟨rfl, ending⟩ := same
  cases ending
  exact ⟨found, solitary, enough, limited, fun fuel bound => (polled fuel bound).2,
    registries 0 ▸ size⟩

/-- The order in which a pass goes through the registry does not show. In any two orders, a pass of
independent handlers reports the same but for the order of the failures, under whatever limit; it
has the same calls, which end in the same way, and it leaves the same registrations. -/
theorem order_does_not_show (arity : Arity) (blueprints : List Blueprint) (moves : List Move) :
    let w := ((Machine.idle arity blueprints).run moves).world
    ∀ (p : PassId) (pass : Pass) (first second : List (Key × Registration)) (limit : Nat),
      w.passes[p]? = some pass → pass.phase = .fresh → pass.lineage = [] → w.Solitary pass →
      first.Perm (w.registry pass.dispatcher).entries.entries →
      second.Perm (w.registry pass.dispatcher).entries.entries →
      ∃ (enough : Nat) (a b : World) (error error' : Option DispatchError) (calls calls' : List Call),
        (∀ fuel, enough ≤ fuel →
          (w.vary pass.dispatcher first limit).poll? fuel p = some (a, some (.completed error)) ∧
          (w.vary pass.dispatcher second limit).poll? fuel p =
            some (b, some (.completed error'))) ∧
        (error = none ↔ error' = none) ∧ SameReport error error' ∧
        a.callsOf p = some calls ∧ b.callsOf p = some calls' ∧ calls.Perm calls' ∧
        a.SameHandlers b ∧ ∀ d, (a.registry d).Same (b.registry d) := by
  intro w p pass first second limit found fresh outermost solitary perm perm'
  have reached : w.Reached :=
    (Machine.run_steady (Machine.steady_idle arity blueprints) moves).2.reached
  obtain ⟨s, enough, a, plays, polled, completed, registries⟩ :=
    reached.vary_polled found fresh outermost solitary perm limit
  obtain ⟨t, enough', b, plays', polled', completed', registries'⟩ :=
    reached.vary_polled found fresh outermost solitary perm' limit
  have orders := perm.trans perm'.symm
  have calls := plays.calls_perm plays' orders
  have report : SameReport s.error? t.error? := .of_calls calls
  refine ⟨max enough enough', a, b, s.error?, t.error?, s.calls, t.calls,
    fun fuel bound => ⟨?_, ?_⟩, report.none_iff, report, ?_, ?_, calls,
    plays.sameHandlers plays' orders completed completed', fun d => ?_⟩
  · exact polled fuel (le_of_max_le_left bound)
  · exact polled' fuel (le_of_max_le_right bound)
  · exact plays.number ▸ completed.callsOf
  · exact plays'.number ▸ completed'.callsOf
  · have distinct := reached.placed.distinct d
    rw [registries, registries']
    by_cases same : d = pass.dispatcher
    · subst same
      rw [if_pos rfl, if_pos rfl]
      have distinct_first : (⟨first⟩ : Roster Key Registration).Distinct :=
        (perm.map Prod.fst).nodup_iff.mpr distinct
      exact .of_perm (distinct_first.filter _) rfl (orders.filter _)
    · rw [if_neg same, if_neg same]
      exact .of_perm distinct rfl (.refl _)

/-- In the reverse order, and one after the other, the calls end as they do in this one. -/
theorem order_does_not_show_trio :
    trioWorld.passes[0]? = some trioPass ∧ trioWorld.Solitary trioPass ∧
      ∃ enough after error, (∀ fuel, enough ≤ fuel →
        (trioWorld.vary 0 (trioWorld.registry 0).entries.entries.reverse 1).poll? fuel 0 =
          some (after, some (.completed error))) ∧ SameReport (some trioFailed) error := by
  have found : trioWorld.passes[0]? = some trioPass := by decide +kernel
  have solitary : trioWorld.Solitary trioPass :=
    ⟨by decide +kernel, by decide +kernel, .inl (by decide +kernel)⟩
  obtain ⟨enough, a, b, error, error', calls, calls', polled, -, report, -⟩ :=
    order_does_not_show .simple trioBlueprints trioMoves 0 trioPass
      (trioWorld.registry 0).entries.entries (trioWorld.registry 0).entries.entries.reverse 1
      found rfl rfl solitary (.refl _) (List.reverse_perm _)
  have known : ((trioWorld.vary 0 (trioWorld.registry 0).entries.entries 1).poll? 60 0).map
      Prod.snd = some (some (.completed (some trioFailed))) := by decide +kernel
  obtain ⟨⟨after, ending⟩, poll, rfl⟩ := Option.map_eq_some_iff.mp known
  have late := World.poll?_of_le poll (le_max_right enough 60)
  have same := late.symm.trans (polled _ (le_max_left enough 60)).1
  rw [Option.some.injEq, Prod.mk.injEq] at same
  obtain ⟨rfl, ending⟩ := same
  cases ending
  exact ⟨found, solitary, enough, b, error', fun fuel bound => (polled fuel bound).2, report⟩

end Fanout
