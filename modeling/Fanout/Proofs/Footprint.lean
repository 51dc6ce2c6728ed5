import Fanout.Scenario
import Fanout.Proofs.Guards

/-! What a pass does to the registries. It sweeps the registry of its dispatcher once, in its first
poll, and only if its snapshot showed dead entries; from then on it leaves all registries alone,
whichever way it ends. All else that happens to a registry is an action of a handler or of another
party. -/
namespace Fanout

/-- The action that a call takes as soon as it is polled. -/
def Status.nextAction : Status → Option Action
  | running _ .ready (.act action _ :: _) => some action
  | _ => none

theorem Status.nextAction_eq_some {status : Status} {action : Action}
    (h : status.nextAction = some action) :
    ∃ number propagate others,
      status = .running number .ready (.act action propagate :: others) := by
  unfold nextAction at h
  split at h
  · cases h
    exact ⟨_, _, _, rfl⟩
  · cases h

namespace World

/-- The registry of the dispatcher is swept, after a snapshot that showed so many dead entries. -/
structure Sweeps (w : World) (d : DispatcherId) (dead : Nat) (w' : World) : Prop where
  elsewhere : ∀ e ≠ d, w'.registry e = w.registry e
  counter : (w'.registry d).counter = (w.registry d).counter
  clean : dead = 0 → w'.registry d = w.registry d
  /-- The entries of all dead handlers go, and those of living ones stay as they are. -/
  entries : dead ≠ 0 → (w'.registry d).entries.entries =
    (w.registry d).entries.entries.filter fun e => w.alive e.2.handler
  /-- A guard of a living handler's entry stays active as long as the dispatcher is there. -/
  guards : ∀ guard entry, guard.dispatcher = some d → w.isActive guard = true →
    (w.registry d).find? guard.key = some entry → w.alive entry.handler = true →
    w'.keeps d = true → w'.isActive guard = true

/-- What is left in a registry decides what a sweep was. -/
theorem sweeps_of_registry {w w' : World} {d : DispatcherId} {dead : Nat}
    (elsewhere : ∀ e ≠ d, w'.registry e = w.registry e)
    (swept : w'.registry d =
      if dead = 0 then w.registry d else ((w.registry d).purge w.alive).2) :
    w.Sweeps d dead w' := by
  refine ⟨elsewhere, ?_, fun clean => ?_, fun dirty => ?_, ?_⟩
  · rw [swept]
    split <;> rfl
  · rw [swept, if_pos clean]
  · rw [swept, if_neg dirty]
    rfl
  · intro guard entry belongs active found alive kept
    obtain ⟨_, key, generation⟩ := guard
    cases belongs
    have holds : (w.registry d).holds key generation = true := by
      rw [isActive_some, Bool.and_eq_true] at active
      exact active.2
    have stays : (w'.registry d).find? key = some entry := by
      rw [swept]
      split
      · exact found
      · exact Roster.lookup_filter_of_kept found alive
    have same : entry.generation = generation := by simpa [Registry.holds, found] using holds
    simp [isActive_some, kept, Registry.holds, stays, same]

theorem registry_purge (w : World) (d : DispatcherId) (pass : Option PassId) (e : DispatcherId) :
    (w.purge d pass).1.registry e =
      if d = e then ((w.registry d).purge w.alive).2 else w.registry e := by
  have written : (w.purge d pass).1.registry e =
      (w.setRegistry d ((w.registry d).purge w.alive).2).registry e := rfl
  rw [written]
  split
  · rename_i same
    subst same
    rcases Nat.lt_or_ge d w.dispatchers.length with there | beyond
    · exact registry_setRegistry w there _
    · rw [registry_of_le (by simpa [setRegistry] using beyond), registry_of_le beyond]
      rfl
  · rename_i other
    exact registry_setRegistry_of_ne w other _

/-- Whatever others did since the snapshot, the sweep goes by who is alive now. -/
theorem sweep_sweeps (w : World) (p : PassId) (d : DispatcherId) (dead : Nat) :
    w.Sweeps d dead (w.sweep p d dead) := by
  apply sweeps_of_registry
  · intro e other
    unfold sweep
    split
    · rfl
    · rw [registry_purge, if_neg other.symm]
  · unfold sweep
    split
    · rfl
    · rw [registry_purge, if_pos rfl]

theorem registry_survey (w : World) (p : PassId) (d e : DispatcherId) :
    (w.survey p d).registry e =
      if d = e then ((w.registry d).purge w.alive).2 else w.registry e := by
  obtain ⟨events, -, aside⟩ := survey_written w p d
  rw [registry_of_dispatchers aside.dispatchers]
  exact registry_purge w d none e

theorem registry_openPass (w : World) (p : PassId) (pass : Pass) (e : DispatcherId) :
    (w.openPass p pass).1.registry e =
      if pass.dispatcher = e then ((w.registry pass.dispatcher).purge w.alive).2
      else w.registry e := by
  rw [registry_of_dispatchers (survey_opened w p pass).dispatchers, registry_survey]

/-- With nobody acting in between, a pass sweeps by the snapshot that it took, and what it leaves in
the registry is the living handlers that this showed. -/
theorem openPass_sweeps (w : World) (p : PassId) (pass : Pass) :
    w.Sweeps pass.dispatcher (w.snapshotOf pass.dispatcher).dead (w.openPass p pass).1 ∧
      ((w.openPass p pass).1.registry pass.dispatcher).entries.entries.map (·.2.handler) =
        (w.snapshotOf pass.dispatcher).live := by
  constructor
  · apply sweeps_of_registry
    · intro e other
      rw [registry_openPass, if_neg other.symm]
    · rw [registry_openPass, if_pos rfl]
      split
      · rename_i clean
        exact purge_of_no_dead clean
      · rfl
  · rw [registry_openPass, if_pos rfl]
    simp only [Registry.purge, snapshotOf, Registry.live_snapshot]

theorem exists_reorder (w : World) (d : DispatcherId) {live : List HandlerId}
    (perm : live.Perm (w.snapshotOf d).live) :
    ∃ order, ((w.reorder d order).snapshotOf d).live = live := by
  rw [snapshotOf, Registry.live_snapshot] at perm
  have chosen := congrFun (congrFun (List.eq_map_comp_perm fun e : Key × Registration =>
    e.2.handler) live) ((w.registry d).entries.entries.filter fun e => w.alive e.2.handler)
  obtain ⟨first, rfl, same⟩ := chosen.mpr perm
  let order := first ++ (w.registry d).entries.entries.filter fun e => !w.alive e.2.handler
  have whole : order.Perm (w.registry d).entries.entries :=
    (same.append_right _).trans (List.filter_append_perm ..)
  have ordered : ((w.arrange d order).registry d).entries.entries = order := by
    rcases Nat.lt_or_ge d w.dispatchers.length with there | beyond
    · rw [registry_arrange there]
    · rw [registry_of_le beyond] at whole
      rw [whole.eq_nil, registry_of_le (by simpa [arrange, setRegistry] using beyond)]
  have living : order.filter (fun e => w.alive e.2.handler) = first := by
    have kept : ∀ e ∈ first, w.alive e.2.handler = true := fun e member =>
      (List.mem_filter.mp (same.mem_iff.mp member)).2
    simp [order, List.filter_append, List.filter_eq_self.mpr kept, List.filter_filter]
  refine ⟨order, ?_⟩
  rw [reorder, if_pos whole, snapshotOf, Registry.live_snapshot, ordered]
  exact congrArg (List.map _) living

/-- The survey of a registry, when others act between its snapshot and its sweep. -/
def surveyAmid (w : World) (p : PassId) (d : DispatcherId) (others : List Action) : World :=
  let snapshot := w.snapshotOf d
  (((w.retainAll snapshot.live).performAll others).1.sweep p d snapshot.dead).record
    (.opened p d snapshot.live snapshot.dead)

theorem surveyAmid_nil (w : World) (p : PassId) (d : DispatcherId) :
    w.surveyAmid p d [] = w.survey p d := rfl

theorem Aside.setWaking (w : World) (waking : Waking) : Aside w (w.setWaking waking) :=
  .of_eq rfl rfl rfl rfl rfl

theorem Aside.rouse (w : World) (calls : List CallId) : Aside w (w.rouse calls) := by
  obtain ⟨waking, roused⟩ := rouse_eq w calls
  exact roused ▸ .setWaking w waking

theorem Aside.signal (w : World) (s : Signal) : Aside w (w.signal s) := by
  obtain ⟨waking, signalled⟩ := signal_eq w s
  exact signalled ▸ .setWaking w waking

theorem Aside.cancelToken (w : World) (token : Token) : Aside w (w.cancelToken token) := by
  unfold World.cancelToken
  split
  · exact .refl w
  · have cancelled : Aside w { w with cancelled := token :: w.cancelled } :=
      .of_eq rfl rfl rfl rfl rfl
    exact cancelled.trans (.signal _ _)

theorem Aside.arriveAt (w : World) (gate : String) : Aside w (w.arriveAt gate) := by
  have arrived : Aside w { w with arrivals := gate :: w.arrivals } := .of_eq rfl rfl rfl rfl rfl
  exact arrived.trans (.signal _ _)

theorem Aside.openGate (w : World) (gate : String) : Aside w (w.openGate gate) := by
  have opened : Aside w { w with openGates := gate :: w.openGates.filter (· ≠ gate) } :=
    .of_eq rfl rfl rfl rfl rfl
  exact opened.trans (.signal _ _)

theorem Aside.tell (w : World) (p : PassId) (i : Nat) (h : HandlerId) (note : Note) :
    Aside w (w.tell p i h note) := .record w fun _ => rfl

theorem aside_summon {w started : World} {caller : Option (CallId × Pass)} {summons : Summons}
    {p : PassId} (h : w.summon caller summons = .ok (p, started)) : Aside w started := by
  obtain ⟨d, token, -, made⟩ := summon_eq_ok h
  cases made
  exact .of_eq rfl rfl rfl rfl rfl

theorem aside_afterAction (p : PassId) (i : Nat) (h : HandlerId) (action : Action)
    (propagate : Bool) (result : World × Answer) :
    Aside result.1 (afterAction p i h action propagate result).1 := by
  unfold afterAction
  split
  · split
    · exact .refl _
    · exact .tell ..
  · exact .tell ..

/-- A step of a script that is no action concerns no registry. -/
theorem aside_take (w : World) (p : PassId) (i : Nat) (pass : Pass) (h : HandlerId)
    {step : Step} (plain : ∀ action propagate, step ≠ .act action propagate) :
    Aside w (w.take p i pass h step).1 := by
  cases step with
  | say text => exact .tell ..
  | showToken => exact .tell ..
  | linger times => cases times <;> exact .refl w
  | arrive gate expected => exact .arriveAt w gate
  | cancelToken => exact .cancelToken w pass.token
  | failBelow bound => simp only [take]; split <;> exact .refl w
  | failFor sender => simp only [take]; split <;> exact .refl w
  | checkToken => simp only [take]; split <;> exact .refl w
  | raise summons propagate =>
    simp only [take]
    split
    · rename_i q started hs
      exact aside_summon hs
    · exact .tell ..
  | act action propagate => exact absurd rfl (plain action propagate)
  | _ => exact .refl w

end World

namespace Machine
open World
variable {frame : Frame} {outer : List Frame}

/-- What a handler or another party does at once in the move. -/
def actionOf (m : Machine) : Move → Option Action
  | .act action => some action
  | .tick =>
      match m.control with
      | .polling frame _ =>
          (m.world.call? frame.pass frame.call).bind fun call => call.status.nextAction
      | _ => none
  | _ => none

/-- The world in which that is done, or in which a registry has got another order, and nothing
else. -/
def acted (m : Machine) (move : Move) : World :=
  match m.actionOf move with
  | some action => (m.world.perform action).1
  | none =>
      match move with
      | .reorder d order => m.world.reorder d order
      | _ => m.world

theorem aside_pause (w : World) (frame : Frame) (outer : List Frame) :
    Aside w (pause frame outer w).world := by
  have crowded : ∀ (pass : Pass) (turn : Turn),
      Aside w (if breaksOff pass turn then
        (⟨w.rouse pass.lineage, .leaving frame.pass outer⟩ : Machine)
        else ⟨w, .choosing turn outer⟩).world := by
    intro pass turn
    split
    · exact .rouse w pass.lineage
    · exact .refl w
  unfold pause
  split
  · split
    · exact crowded _ _
    · exact .refl w
  · exact .refl w

theorem aside_yield (w : World) (frame : Frame) (outer : List Frame) :
    Aside w (yield frame outer w).world :=
  (Aside.wake w frame.callId).trans (aside_pause _ frame outer)

theorem aside_toPoll (w : World) (p : PassId) : Aside w (toPoll w p).world := .setWaking w _

theorem aside_leave (w : World) (p : PassId) (outer : List Frame) :
    Aside w (leave w p outer).world := by
  cases outer with
  | nil =>
    unfold leave
    dsimp only
    split
    · exact aside_toPoll w p
    · exact .refl w
  | cons frame frames => exact aside_pause w frame frames

theorem aside_deliver (w : World) (error : Option DispatchError) (outer : List Frame) :
    Aside w (deliver w error outer).world := by
  cases outer with
  | nil => exact .refl w
  | cons frame frames =>
    unfold deliver
    dsimp only
    split
    · split
      · exact .refl w
      · exact (Aside.tell w _ _ _ _).trans (.setStatus _ _ _ _)
    · exact .refl w

theorem aside_endTurn (w : World) (p : PassId) (outer : List Frame) :
    Aside w (endTurn w p outer).world := by
  unfold endTurn
  split
  · split
    · exact (Aside.close w p _).trans (aside_deliver _ _ outer)
    · exact .refl w
  · exact .refl w

theorem aside_choose (w : World) (turn : Turn) (outer : List Frame) :
    Aside w (choose w turn outer).world := by
  unfold choose
  split
  · split
    · split <;> exact .setWaking w _
    · exact .setWaking w _
  · exact aside_endTurn w _ outer

theorem aside_afterStep (number : Nat) (rest : Script) (result : World × Effect) :
    Aside result.1 (afterStep frame outer number rest result).world := by
  obtain ⟨after, effect⟩ := result
  cases effect with
  | goOn await => exact .setStatus after _ _ _
  | giveWay turns => exact (Aside.setStatus after _ _ _).trans (aside_yield _ frame outer)
  | finish verdict => exact .refl after

theorem aside_visitRunning (w : World) (pass : Pass) (h : HandlerId) (number : Nat)
    (await : Await) (rest : Script)
    (plain : ∀ action propagate others, await = .ready → rest ≠ .act action propagate :: others) :
    Aside w (visitRunning w frame outer pass h number await rest).world := by
  unfold visitRunning
  split
  · split
    · rename_i step rest
      refine .trans (aside_take w _ _ pass h fun action propagate same => ?_) (aside_afterStep ..)
      exact plain action propagate rest rfl (by rw [same])
    · exact .refl w
  · exact (Aside.setStatus w _ _ _).trans (aside_yield _ frame outer)
  · exact .refl w
  · split
    · exact .setStatus w _ _ _
    · refine .trans ?_ (aside_pause _ frame outer)
      unfold World.await
      split
      · exact .setWaking w _
      · exact .refl w

theorem aside_visit (w : World) (pass : Pass) (call : Call)
    (plain : ∀ number action propagate others,
      call.status ≠ .running number .ready (.act action propagate :: others)) :
    Aside w (visit w frame outer pass call).world := by
  unfold visit
  split
  · split
    · exact .beginCall w _ _ pass call
    · split
      · exact (Aside.modifyPass w _ _).trans (.beginCall _ _ _ pass call)
      · refine .trans ?_ (aside_pause _ frame outer)
        exact (Aside.modifyPass w _ _).trans (.setStatus _ _ _ _)
  · exact aside_pause w frame outer
  · exact .beginCall w _ _ pass call
  · rename_i number await rest status
    refine aside_visitRunning w pass _ number await rest fun action propagate others ready same => ?_
    exact plain number action propagate others (by rw [status, ready, same])
  · exact .refl w
  · exact .refl w

/-- A call that acts does to the registries what its action does. -/
theorem aside_visit_act (w : World) (pass : Pass) (call : Call) {number : Nat} {action : Action}
    {propagate : Bool} {others : Script}
    (acts : call.status = .running number .ready (.act action propagate :: others)) :
    Aside (w.perform action).1 (visit w frame outer pass call).world := by
  unfold visit
  rw [acts]
  dsimp only
  unfold visitRunning
  exact (aside_afterAction _ _ _ action propagate (w.perform action)).trans (aside_afterStep ..)

theorem aside_poll (w : World) (frame : Frame) (outer : List Frame) :
    Aside
      (match (w.call? frame.pass frame.call).bind (·.status.nextAction) with
        | some action => (w.perform action).1
        | none => w)
      (poll w frame outer).world := by
  unfold poll
  cases found : w.passes[frame.pass]? with
  | none =>
    simp only [call?, found]
    exact .refl w
  | some pass =>
    cases at_frame : w.call? frame.pass frame.call with
    | none => exact .refl w
    | some call =>
      dsimp only [Option.bind_some]
      cases next : call.status.nextAction with
      | some action =>
        obtain ⟨number, propagate, others, acts⟩ := Status.nextAction_eq_some next
        exact aside_visit_act w pass call acts
      | none =>
        refine aside_visit w pass call fun number action propagate others acts => ?_
        rw [acts] at next
        cases next

theorem aside_conclude (w : World) (verdict : Verdict) (frames : List Frame) :
    Aside w (conclude w verdict frames).world := by
  cases frames with
  | nil => unfold conclude; cases verdict <;> exact .refl w
  | cons frame outer =>
    unfold conclude
    dsimp only
    split
    · rename_i pass call found at_frame
      cases verdict with
      | returned error => exact (Aside.returnCall w _ _ _ error).trans (.setWaking _ _)
      | panicked payload =>
        dsimp only
        split
        · exact (Aside.catchPanic w _ _ _ call payload).trans (.setWaking _ _)
        · exact .abandon w _ _
    · exact .refl w

theorem aside_enter (w : World) {p : PassId} (outer : List Frame)
    (opened : w.isFresh p = false) : Aside w (enter w p outer).world := by
  unfold enter
  split
  · rename_i pass found
    split
    · rename_i fresh
      simp [isFresh, found, fresh] at opened
    · unfold beginTurn
      dsimp only
      split <;> exact .of_eq rfl rfl rfl rfl rfl
    · exact .refl w
  · exact .refl w

/-- A move does to the registries what is done at once in it, unless it opens a pass. -/
theorem aside_move (m : Machine) {move : Move} (plain : move = .tick → ∀ p, m.isOpening p = false) :
    Aside (m.acted move) (m.move move).world := by
  cases move with
  | tick =>
    obtain ⟨w, control⟩ := m
    cases control with
    | entering p outer =>
      have opened : w.isFresh p = false := by simpa [isOpening] using plain rfl p
      exact aside_enter w outer opened
    | choosing turn outer => exact aside_choose w turn outer
    | polling frame outer => exact aside_poll w frame outer
    | leaving p outer => exact aside_leave w p outer
    | ending verdict frames => exact aside_conclude w verdict frames
    | settled ending => exact .refl w
  | act action => exact .refl _
  | start summons =>
    unfold Machine.move
    dsimp only
    split
    · rename_i p started hs
      exact aside_summon hs
    · exact .refl _
  | poll p =>
    unfold Machine.move
    dsimp only
    split
    · exact aside_toPoll m.world p
    · exact .refl _
  | suspend => unfold Machine.move; dsimp only; split <;> exact .refl _
  | drop p =>
    unfold Machine.move
    dsimp only
    split
    · exact .abandon m.world p .dropped
    · exact .refl _
  | reorder d order => exact .refl _

/-- The first poll of a pass opens it, and then nothing but who is to be polled changes. -/
theorem move_isOpening {m : Machine} {p : PassId} (opening : m.isOpening p = true) :
    ∃ pass waking, m.world.passes[p]? = some pass ∧
      (m.move .tick).world = (m.world.openPass p pass).1.setWaking waking := by
  obtain ⟨w, control⟩ := m
  cases control with
  | entering q outer =>
    simp only [isOpening, Bool.and_eq_true, decide_eq_true_eq] at opening
    obtain ⟨rfl, fresh⟩ := opening
    unfold isFresh at fresh
    split at fresh
    · rename_i pass found
      have entered :
          (enter w q outer).world = (afterOpening q outer (w.openPass q pass)).world := by
        simp only [enter, found, of_decide_eq_true fresh]
      rcases result : w.openPass q pass with ⟨after, _ | payload⟩
      · rw [result] at entered
        exact ⟨pass, after.waking.answer q, found, by rw [result]; exact entered⟩
      · rw [result] at entered
        exact ⟨pass, after.waking, found, by rw [result]; exact entered⟩
    · cases fresh
  | _ => simp [isOpening] at opening

theorem opening_sweeps {m : Machine} {p : PassId} (opening : m.isOpening p = true) :
    ∃ pass, m.world.passes[p]? = some pass ∧
      let d := pass.dispatcher
      m.world.Sweeps d (m.world.snapshotOf d).dead (m.move .tick).world ∧
        ((m.move .tick).world.registry d).entries.entries.map (·.2.handler) =
          (m.world.snapshotOf d).live := by
  obtain ⟨pass, waking, found, after⟩ := move_isOpening opening
  obtain ⟨sweeps, left⟩ := openPass_sweeps m.world p pass
  rw [after]
  exact ⟨pass, found,
    ⟨sweeps.elsewhere, sweeps.counter, sweeps.clean, sweeps.entries, sweeps.guards⟩, left⟩

/-- A first poll may come upon the living handlers in any order. -/
theorem opening_in_any_order {m : Machine} {p : PassId} (opening : m.isOpening p = true)
    (d : DispatcherId) {live : List HandlerId} (perm : live.Perm (m.world.snapshotOf d).live) :
    ∃ order, (m.move (.reorder d order)).isOpening p = true ∧
      ((m.move (.reorder d order)).world.snapshotOf d).live = live := by
  obtain ⟨order, ordered⟩ := m.world.exists_reorder d perm
  refine ⟨order, ?_, ordered⟩
  obtain ⟨w, control⟩ := m
  unfold Machine.move reorder
  dsimp only
  split
  · exact opening
  · exact opening

/-- In this run nobody acts, no pass of the dispatcher is polled for the first time, and its registry
is not put into another order. -/
def Untouched (d : DispatcherId) (m : Machine) : List Move → Prop
  | [] => True
  | move :: moves =>
      m.actionOf move = none ∧
      (move = .tick → ∀ p pass, m.isOpening p = true → m.world.passes[p]? = some pass →
        pass.dispatcher ≠ d) ∧
      (∀ order, move ≠ .reorder d order) ∧
      Untouched d (m.move move) moves

theorem registry_acted {m : Machine} {d : DispatcherId} {move : Move}
    (nobody : m.actionOf move = none) (ordered : ∀ order, move ≠ .reorder d order) :
    (m.acted move).registry d = m.world.registry d := by
  unfold acted
  rw [nobody]
  cases move with
  | reorder e order =>
    show (m.world.reorder e order).registry d = _
    unfold reorder
    split
    · exact registry_arrange_of_ne (fun same => ordered order (by rw [same])) order
    · rfl
  | _ => rfl

theorem registry_run_of_untouched {m : Machine} {d : DispatcherId} {moves : List Move}
    (untouched : m.Untouched d moves) :
    (m.run moves).world.registry d = m.world.registry d := by
  induction moves generalizing m with
  | nil => rfl
  | cons move moves ih =>
    obtain ⟨nobody, others, ordered, later⟩ := untouched
    refine (ih later).trans ?_
    by_cases plain : move = .tick → ∀ p, m.isOpening p = false
    · exact (registry_of_dispatchers (aside_move m plain).dispatchers d).trans
        (registry_acted nobody ordered)
    · simp only [Classical.not_imp, not_forall, Bool.not_eq_false] at plain
      obtain ⟨rfl, p, opening⟩ := plain
      obtain ⟨pass, found, sweeps, -⟩ := opening_sweeps opening
      exact sweeps.elsewhere d (others rfl p pass opening found).symm

end Machine

/-- In every run, a pass changes the registry of its dispatcher in its first poll and by a sweep
alone, also if others act between its snapshot and its sweep. Whatever else a move changes in a
registry is the doing of a handler or of another party, or another order of its entries; where there
is nothing of that, and no other pass of the dispatcher is polled for the first time, its registry
stays as it is, however its passes end. -/
theorem pass_footprint (arity : Arity) (blueprints : List Blueprint) (moves : List Move) :
    let m := (Machine.idle arity blueprints).run moves
    (∀ p, m.isOpening p = true → ∃ pass, m.world.passes[p]? = some pass ∧
      let d := pass.dispatcher
      m.world.Sweeps d (m.world.snapshotOf d).dead (m.move .tick).world ∧
        ((m.move .tick).world.registry d).entries.entries.map (·.2.handler) =
          (m.world.snapshotOf d).live) ∧
    (∀ p d, m.world.surveyAmid p d [] = m.world.survey p d ∧ ∀ others,
      let amid := ((m.world.retainAll (m.world.snapshotOf d).live).performAll others).1
      amid.Sweeps d (m.world.snapshotOf d).dead (m.world.surveyAmid p d others)) ∧
    (∀ move, (move = .tick → ∀ p, m.isOpening p = false) →
      ∀ d, (m.move move).world.registry d = (m.acted move).registry d) ∧
    ∀ d more, m.Untouched d more → (m.run more).world.registry d = m.world.registry d := by
  intro m
  refine ⟨fun p => Machine.opening_sweeps,
    fun p d => ⟨World.surveyAmid_nil m.world p d, fun others => ?_⟩, fun move plain d => ?_,
    fun d more => Machine.registry_run_of_untouched⟩
  · intro amid
    have sweeps := World.sweep_sweeps amid p d (m.world.snapshotOf d).dead
    exact ⟨sweeps.elsewhere, sweeps.counter, sweeps.clean, sweeps.entries, sweeps.guards⟩
  · exact World.registry_of_dispatchers (Machine.aside_move m plain).dispatchers d

/-- One of two handlers is gone when a pass is polled for the first time; the other has a guard. -/
def sweptMoves : List Move :=
  [.act (.createDispatcher (some "d") .usual), .act (.createHandler (some "a") 0 none),
    .act (.createHandler (some "b") 0 none), .act (.register (some "d") (some "a")),
    .act (.subscribe (some "g") (some "d") (some "b")), .act (.drop (some "a")),
    .start { dispatcher := some "d" }, .poll 0]

/-- The pass removes the entry of the one, and the guard of the other stays active. -/
theorem pass_footprint_swept :
    let m := (Machine.idle .simple [{}]).run sweptMoves
    let w := (m.move .tick).world
    (m.isOpening 0 = true ∧ (m.world.snapshotOf 0).dead = 1 ∧ m.world.alive "b" = true) ∧
    (w.registry 0).entries.entries.map (·.2.handler) = ["b"] ∧
    w.isActive ⟨some 0, w.keyOf "b", 2⟩ = true := by
  intro m w
  have opening : m.isOpening 0 = true := by decide +kernel
  obtain ⟨pass, found, sweeps, left⟩ := (pass_footprint .simple [{}] sweptMoves).1 0 opening
  have belongs : pass.dispatcher = 0 := by
    have known : m.world.passes[0]?.map Pass.dispatcher = some 0 := by decide +kernel
    rw [found] at known
    exact Option.some.inj known
  rw [belongs] at sweeps left
  refine ⟨⟨opening, by decide +kernel, by decide +kernel⟩, left.trans (by decide +kernel), ?_⟩
  exact sweeps.guards ⟨some 0, w.keyOf "b", 2⟩ ⟨"b", 2⟩ rfl (by decide +kernel)
    (by decide +kernel) (by decide +kernel) (by decide +kernel)

end Fanout
