import Fanout.Proofs.Announced

/-! The log of a pass. It agrees with what the pass did and with what it answers: first how many
entries it swept away and how many handlers it calls, where there are any, then every panic that was
caught in it, and last that calls of it went wrong, if that is its answer. -/
namespace Fanout

namespace Record

/-- What a pass logs before its calls. -/
def preamble (dispatcher : String) (evicted live : Nat) : List Record :=
  (if evicted = 0 then [] else
    [⟨.debug, "evicted reclaimed handlers", dispatcher, [("purged", toString evicted)]⟩]) ++
  (if live = 0 then [] else
    [⟨.debug, "dispatching event", dispatcher, [("handlers", toString live)]⟩])

def panicked (dispatcher handler info : String) : Record :=
  ⟨.warn, "handler panicked", dispatcher, [("handler", handler), ("info", info)]⟩

def verdict (dispatcher : String) : Phase → List Record
  | .closed (.completed (some (.handlersFailed total failures))) =>
      [⟨.warn, "handler invocations failed", dispatcher,
        [("failed", toString failures.length), ("total", toString total)]⟩]
  | _ => []

theorem preamble_dispatcher (dispatcher : String) (evicted live : Nat) :
    ∀ record ∈ preamble dispatcher evicted live, record.dispatcher = dispatcher := by
  unfold preamble
  split <;> split <;> simp

theorem verdict_dispatcher (dispatcher : String) (phase : Phase) :
    ∀ record ∈ verdict dispatcher phase, record.dispatcher = dispatcher := by
  unfold verdict
  split <;> simp

theorem verdict_of_well {dispatcher : String} {phase : Phase} (well : ∀ total failures,
    phase ≠ .closed (.completed (some (.handlersFailed total failures)))) :
    verdict dispatcher phase = [] := by
  unfold verdict
  split
  · exact absurd rfl (well _ _)
  · rfl

end Record

namespace World

/-- The records that a pass itself makes, the first one first. -/
def logOf (w : World) (p : PassId) : List Record :=
  (w.announced p).reverse.filterMap (Event.record? w.nameOf)

theorem size_sweep (w : World) (p : PassId) (d : DispatcherId) {dead : Nat} (dirty : dead ≠ 0) :
    ((w.registry d).purge w.alive).1 =
      (w.registry d).size - ((w.sweep p d dead).registry d).size := by
  rw [sweep, if_neg dirty, registry_purge, if_pos rfl]
  rfl

/-- The record of a sweep tells how many entries it took out, if it took out any. -/
theorem records_sweepEvents (w : World) (p : PassId) (d : DispatcherId) (dead : Nat)
    (nameOf : DispatcherId → String) :
    (w.sweepEvents p d dead).filterMap (Event.record? nameOf) =
      Record.preamble (nameOf d)
        ((w.registry d).size - ((w.sweep p d dead).registry d).size) 0 := by
  unfold sweepEvents Record.preamble
  split
  · rename_i clean
    simp [sweep, clean]
  · rename_i dirty
    rw [size_sweep w p d dirty]
    by_cases untouched : (w.registry d).size - ((w.sweep p d dead).registry d).size = 0 <;>
      simp [Event.record?, untouched]

/-- What a pass logs before its calls tells how many entries it took out, and how many handlers its
snapshot showed. -/
theorem records_surveyEvents (w : World) (p : PassId) (d : DispatcherId) (amid : World)
    (nameOf : DispatcherId → String) :
    (w.surveyEvents p d amid).reverse.filterMap (Event.record? nameOf) =
      Record.preamble (nameOf d)
        ((amid.registry d).size - ((amid.sweep p d (w.snapshotOf d).dead).registry d).size)
        (w.snapshotOf d).live.length := by
  have swept := records_sweepEvents amid p d (w.snapshotOf d).dead nameOf
  have one : (amid.sweepEvents p d (w.snapshotOf d).dead).reverse =
      amid.sweepEvents p d (w.snapshotOf d).dead := by
    unfold sweepEvents
    split <;> rfl
  rw [surveyEvents, List.reverse_cons, List.filterMap_append, one, swept]
  by_cases nobody : (w.snapshotOf d).live = [] <;>
    simp [Event.record?, Record.preamble, Record.dispatching, nobody]

theorem records_opening {w : World} {p : PassId} (pass : Pass) (nameOf : DispatcherId → String) :
    (w.surveyEvents p pass.dispatcher
      (w.retainAll (w.snapshotOf pass.dispatcher).live)).reverse.filterMap (Event.record? nameOf) =
      Record.preamble (nameOf pass.dispatcher)
        ((w.registry pass.dispatcher).size -
          ((w.openPass p pass).1.registry pass.dispatcher).size)
        (w.snapshotOf pass.dispatcher).live.length := by
  have before : (w.retainAll (w.snapshotOf pass.dispatcher).live).registry pass.dispatcher =
      w.registry pass.dispatcher := registry_of_dispatchers (Aside.retainAll w _).dispatchers _
  have after : (w.openPass p pass).1.registry pass.dispatcher =
      (w.survey p pass.dispatcher).registry pass.dispatcher :=
    registry_of_dispatchers (survey_opened w p pass).dispatchers _
  rw [records_surveyEvents, before, after]
  rfl

theorem records_closing {w : World} {p : PassId} {pass : Pass} (found : w.passes[p]? = some pass)
    (nameOf : DispatcherId → String) :
    (w.closing p).reverse.filterMap (Event.record? nameOf) =
      Record.verdict (nameOf pass.dispatcher) pass.phase := by
  rw [closing_of_found found, Pass.closing]
  cases pass.phase with
  | fresh => rfl
  | running => rfl
  | closed ending =>
    cases ending with
    | completed error =>
      cases error with
      | none => rfl
      | some error => cases error <;> rfl
    | panicked payload => rfl
    | dropped => rfl

/-- Every panic that was caught has a record, under the name that its handler had when the pass was
polled for the first time. -/
theorem records_catches {w : World} {p : PassId} {pass : Pass} (found : w.passes[p]? = some pass)
    {live : List HandlerId} {names : List String} (plan : pass.plan = live.zip names)
    (same : live.length = names.length) {panics : List (Nat × Payload)}
    (small : ∀ panic ∈ panics, panic.1 < names.length) (nameOf : DispatcherId → String) :
    (panics.filterMap (w.catches p)).filterMap (Event.record? nameOf) =
      (if (w.settings pass.dispatcher).isolatePanics then panics else []).map fun panic =>
        Record.panicked (nameOf pass.dispatcher) (names.getD panic.1 "") panic.2.info := by
  have each : ∀ panic ∈ panics, (w.catches p panic).bind (Event.record? nameOf) =
      if (w.settings pass.dispatcher).isolatePanics then
        some (Record.panicked (nameOf pass.dispatcher) (names.getD panic.1 "") panic.2.info)
      else none := by
    intro panic member
    have there := small panic member
    obtain ⟨planned, at_position, named⟩ : ∃ planned, pass.plan[panic.1]? = some planned ∧
        planned.2 = names[panic.1] := by
      refine ⟨(live[panic.1], names[panic.1]), ?_, rfl⟩
      rw [plan, List.getElem?_eq_getElem (by simp [there, same]), List.getElem_zip]
    rw [catches_of_found found, at_position, Option.map_some, named]
    have name : names.getD panic.1 "" = names[panic.1] := by simp [there]
    split
    · rw [name]
      rfl
    · rfl
  rw [List.filterMap_filterMap, List.filterMap_congr each]
  split
  · exact congrFun List.filterMap_eq_map' panics
  · exact List.filterMap_none _

end World

namespace World

/-- The pass is closed, and there was nothing that went wrong. -/
def Succeeded (w : World) (p : PassId) : Prop :=
  ∃ pass, w.passes[p]? = some pass ∧ pass.phase = .closed (.completed none)

theorem Succeeded.leads {w w' : World} {p : PassId} (h : w.Succeeded p) (leads : w.Leads w') :
    w'.Succeeded p := by
  obtain ⟨pass, found, closed⟩ := h
  exact ⟨pass, leads.closed found (by rw [closed]; rfl), closed⟩

end World

namespace Machine
open World
variable {m : Machine} {p : PassId}

/-- The pass takes its turn, but has no calls. -/
structure Vacant (m : Machine) (p : PassId) : Prop where
  turning : ∃ turn outer, m.control = .choosing turn outer ∧ turn.pass = p
  empty : ∃ pass, m.world.passes[p]? = some pass ∧ pass.phase = .running ∧ pass.calls = []

theorem phase_deliver (w : World) (error : Option DispatchError) (outer : List Frame) (p : PassId) :
    ((deliver w error outer).world.passes[p]?).map Pass.phase = (w.passes[p]?).map Pass.phase := by
  have set : ∀ (v : World) (q : PassId) (i : Nat) (status : Status),
      ((v.setStatus q i status).passes[p]?).map Pass.phase = (v.passes[p]?).map Pass.phase := by
    intro v q i status
    simp only [setStatus, modifyPass, List.getElem?_modify]
    cases v.passes[p]? with
    | none => rfl
    | some pass =>
      dsimp only [Option.map_some, Functor.map]
      split <;> rfl
  cases outer with
  | nil => rfl
  | cons frame frames =>
    unfold deliver
    dsimp only
    split
    · split
      · rfl
      · exact set _ _ _ _
    · rfl

/-- If something that is due turns out to be no call, the pass goes on with its turn, and has less
to do; otherwise it is closed. -/
theorem tick_vacant (h : m.Vacant p) :
    (m.tick.Vacant p ∧ m.tick.world.waking.due.length < m.world.waking.due.length) ∨
      m.tick.world.Succeeded p := by
  obtain ⟨⟨turn, outer, control, rfl⟩, pass, found, running, no_calls⟩ := h
  obtain ⟨w, _⟩ := m
  cases control
  rw [show tick ⟨w, .choosing turn outer⟩ = choose w turn outer from rfl]
  unfold choose
  cases next : w.waking.next? turn.pass with
  | some taken =>
    obtain ⟨call, left⟩ := taken
    obtain ⟨due, same⟩ := Waking.mem_due_of_next? next
    have nobody : w.call? call.pass call.position = none := by
      rw [same, call?_of_found found, no_calls, List.getElem?_nil]
    have fewer : left.due = w.waking.due.erase call := by
      rw [Waking.eq_of_next? next]
    dsimp only
    rw [nobody]
    refine .inl ⟨⟨⟨turn, outer, rfl, rfl⟩, pass, found, running, no_calls⟩, ?_⟩
    show left.due.length < _
    rw [fewer, List.length_erase_of_mem due]
    exact Nat.sub_lt (List.length_pos_of_mem due) Nat.one_pos
  | none =>
    refine .inr ?_
    have finished : pass.isOver = true := by rw [Pass.isOver, no_calls, List.all_nil]
    have well : pass.error? = none := by rw [Pass.error?, Pass.failures, no_calls]; rfl
    have closed : ((w.close turn.pass (.completed none)).passes[turn.pass]?).map Pass.phase =
        some (.closed (.completed none)) := by
      rw [passes_close found, getElem?_set_of_some _ found]
      rfl
    simp only [endTurn, found, finished, well, if_true]
    rw [← phase_deliver _ none outer, Option.map_eq_some_iff] at closed
    exact closed

/-- Others may act in between. -/
theorem move_vacant (h : m.Vacant p) (move : Move) :
    (m.move move).Vacant p ∨ (m.move move).world.Succeeded p := by
  obtain ⟨⟨turn, outer, control, same⟩, pass, found, rest⟩ := id h
  have unsettled : m.isSettled = false := by rw [isSettled, control]
  cases move with
  | tick => exact (tick_vacant h).imp_left And.left
  | act action =>
    refine .inl ⟨⟨turn, outer, control, same⟩, pass, ?_, rest⟩
    exact (Deed.perform m.world action).passes ▸ found
  | start summons =>
    refine .inl ?_
    unfold Machine.move
    dsimp only
    split
    · rename_i summoned
      obtain ⟨-, _, passes⟩ := passes_summon summoned
      exact ⟨⟨turn, outer, control, same⟩, pass, passes ▸ getElem?_append_of_some found _, rest⟩
    · exact h
  | poll q => exact .inl (by simpa [Machine.move, unsettled] using h)
  | suspend => exact .inl (by simpa [Machine.move, control] using h)
  | drop q => exact .inl (by simpa [Machine.move, unsettled] using h)
  | reorder d order =>
    refine .inl ⟨⟨turn, outer, control, same⟩, pass, ?_, rest⟩
    exact (Deed.reorder m.world d order).passes ▸ found

theorem run_vacant (steady : m.Steady) (h : m.Vacant p) (moves : List Move) :
    (m.run moves).Vacant p ∨ (m.run moves).world.Succeeded p := by
  induction moves generalizing m with
  | nil => exact .inl h
  | cons move moves ih =>
    have next := (move_steady steady move).2
    rcases move_vacant h move with vacant | succeeded
    · exact ih next vacant
    · exact .inr (succeeded.leads (run_steady next moves).1)

/-- The poll under way closes the pass. -/
theorem Vacant.ends (h : m.Vacant p) :
    ∃ n, (m.run (List.replicate n .tick)).world.Succeeded p := by
  obtain ⟨bound, small⟩ : ∃ bound, m.world.waking.due.length < bound := ⟨_, Nat.lt_succ_self _⟩
  induction bound generalizing m with
  | zero => exact absurd small (Nat.not_lt_zero _)
  | succ bound ih =>
    rcases tick_vacant h with ⟨vacant, fewer⟩ | succeeded
    · obtain ⟨n, ends⟩ := ih vacant (by omega)
      exact ⟨n + 1, ends⟩
    · exact ⟨1, succeeded⟩

/-- A pass that finds nobody alive has no calls. -/
theorem vacant_of_opening {pass : Pass} (opening : m.isOpening p = true)
    (found : m.world.passes[p]? = some pass)
    (nobody : (m.world.snapshotOf pass.dispatcher).live = []) : (m.move .tick).Vacant p := by
  obtain ⟨w, control⟩ := m
  cases control with
  | entering q outer =>
    simp only [isOpening, Bool.and_eq_true, decide_eq_true_eq] at opening
    obtain ⟨rfl, fresh⟩ := opening
    have first : pass.phase = .fresh := by simpa [isFresh, found] using fresh
    have read : (w.survey q pass.dispatcher).readNames (w.snapshotOf pass.dispatcher).live =
        .ok [] := by
      rw [nobody]
      rfl
    have ticked : Machine.move ⟨w, .entering q outer⟩ .tick =
        beginTurn q outer (w.openPass q pass).1 := by
      have result : w.openPass q pass = ((w.openPass q pass).1, none) := by rw [openPass_ok read]
      show enter w q outer = _
      simp only [enter, found, first]
      rw [result]
      rfl
    have opened := passes_openPass_ok found read ▸ getElem?_set_of_some _ found
    rw [ticked]
    refine ⟨⟨_, outer, rfl, rfl⟩, _, opened, rfl, ?_⟩
    rw [nobody]
    rfl
  | _ => simp [isOpening] at opening

end Machine

namespace World

/-- The records of a pass, in the order in which it made the events known. -/
theorem logOf_of_ordered {w : World} {p : PassId} {pass : Pass} (found : w.passes[p]? = some pass)
    {before caught : List Event} (ordered : w.Ordered p before)
    (panics : w.caughtOf p = caught.reverse) : w.logOf p =
      before.reverse.filterMap (Event.record? w.nameOf) ++
        caught.filterMap (Event.record? w.nameOf) ++
        Record.verdict (w.nameOf pass.dispatcher) pass.phase := by
  rw [logOf, ordered, panics, List.reverse_append, List.reverse_append, List.reverse_reverse,
    List.filterMap_append, List.filterMap_append, records_closing found]

/-- Without calls there are no panics of calls. -/
theorem panics_nil {names : List String} {panics : List (Nat × Payload)}
    (nameless : names.length = 0) (small : ∀ panic ∈ panics, panic.1 < names.length) :
    panics = [] := by
  rw [List.eq_nil_iff_forall_not_mem]
  intro panic member
  exact Nat.not_lt_zero _ (nameless ▸ small panic member)

/-- A pass that was never polled logs nothing. -/
theorem logOf_of_unopened {w : World} {p : PassId} (unopened : w.Unopened p)
    (told : w.announced p = w.closing p) : w.logOf p = [] := by
  rw [logOf, told]
  cases found : w.passes[p]? with
  | none =>
    rw [closing, found]
    rfl
  | some pass =>
    obtain ⟨-, -, incomplete⟩ := unopened pass found
    rw [records_closing found]
    exact Record.verdict_of_well fun total failures => incomplete _

section
variable {w opening : World} {p : PassId} {first : Pass} {panics : List (Nat × Payload)}
  (reached : opening.Reached) (found : opening.passes[p]? = some first)
  (fresh : first.phase = .fresh) (silent : opening.announced p = [])
  (leads : (opening.openPass p first).1.Leads w)
  (caught : w.caughtOf p = (panics.filterMap (w.catches p)).reverse)
include found silent leads caught

theorem logOf_of_opened {pass : Pass} (found' : w.passes[p]? = some pass)
    (same : pass.dispatcher = first.dispatcher) {plan : List (HandlerId × String)}
    (opened : (opening.openPass p first).1.Opened p plan) :
    w.logOf p =
      Record.preamble (w.settings pass.dispatcher).name
        ((opening.registry pass.dispatcher).size -
          ((opening.openPass p first).1.registry pass.dispatcher).size)
        (opening.snapshotOf pass.dispatcher).live.length ++
      (panics.filterMap (w.catches p)).filterMap (Event.record? w.nameOf) ++
      Record.verdict (w.settings pass.dispatcher).name pass.phase := by
  have ordered := (Ordered.opened found silent).leads opened leads
  rw [logOf_of_ordered found' ordered caught, records_opening, same]
  rfl

/-- The log of a pass that came to its calls. -/
theorem logOf_of_named {names : List String}
    (read : opening.readNames (opening.snapshotOf first.dispatcher).live = .ok names)
    {pass : Pass} (found' : w.passes[p]? = some pass)
    (same : pass.dispatcher = first.dispatcher)
    (small : ∀ panic ∈ panics, panic.1 < names.length) :
    w.logOf p =
      Record.preamble (w.settings pass.dispatcher).name
        ((opening.registry pass.dispatcher).size -
          ((opening.openPass p first).1.registry pass.dispatcher).size)
        (opening.snapshotOf pass.dispatcher).live.length ++
      ((if (w.settings pass.dispatcher).isolatePanics then panics else []).map fun panic =>
        Record.panicked (w.settings pass.dispatcher).name (names.getD panic.1 "") panic.2.info) ++
      Record.verdict (w.settings pass.dispatcher).name pass.phase := by
  have opened := opened_of_names found read
  obtain ⟨pass', found'', -, plan⟩ := Leads.opened leads opened
  rw [found', Option.some.injEq] at found''
  subst found''
  rw [logOf_of_opened found silent leads caught found' same opened,
    records_catches found' plan (length_names read) small]
  rfl

include reached fresh

/-- The log of a pass that came to no call. -/
theorem logOf_of_refused {payload : Payload}
    (read : opening.readNames (opening.snapshotOf first.dispatcher).live = .error payload) :
    w.passes[p]? = some { first with phase := .closed (.panicked payload) } ∧
      w.logOf p = Record.preamble (w.settings first.dispatcher).name
        ((opening.registry first.dispatcher).size -
          ((opening.openPass p first).1.registry first.dispatcher).size)
        (opening.snapshotOf first.dispatcher).live.length := by
  have refused := refused_of_names found read
  have found' := leads.closed refused rfl
  have no_calls := (reached.recorded.sound p first found).fresh_empty fresh
  have uncaught : panics.filterMap (w.catches p) = [] := by
    rw [List.filterMap_eq_nil_iff]
    intro panic _
    rw [catches_of_found found', Pass.plan, no_calls]
    split <;> rfl
  refine ⟨found', ?_⟩
  rw [logOf_of_opened found silent leads caught found' rfl ⟨_, refused, by simp, rfl⟩, uncaught]
  simp [Record.verdict]

end

end World

/-- What a pass logs that found nobody alive, and how it ends. -/
theorem Machine.run_nobody {m : Machine} (steady : m.Steady) {p : PassId} {before after : List Move}
    (opening : (m.run before).isOpening p = true) {first : Pass}
    (found : (m.run before).world.passes[p]? = some first)
    (nobody : ((m.run before).world.snapshotOf first.dispatcher).live = []) {pass : Pass}
    (found' : (m.run (before ++ .tick :: after)).world.passes[p]? = some pass) :
    (∀ ending, pass.phase = .closed ending → ending = .completed none) ∧
      ∃ n, (m.run (before ++ .tick :: after ++ List.replicate n .tick)).world.Succeeded p := by
  have opened := vacant_of_opening opening found nobody
  have steady' := (move_steady (run_steady steady before).2 .tick).2
  have split : m.run (before ++ .tick :: after) = ((m.run before).move .tick).run after :=
    run_append m before _
  have more : ∀ n, m.run (before ++ .tick :: after ++ List.replicate n .tick) =
      (((m.run before).move .tick).run after).run (List.replicate n .tick) :=
    fun n => by rw [run_append, split]
  rw [split] at found'
  simp only [more]
  rcases run_vacant steady' opened after with vacant | succeeded
  · refine ⟨fun ending closed => ?_, vacant.ends⟩
    obtain ⟨other, same, running, -⟩ := vacant.empty
    rw [found', Option.some.injEq] at same
    rw [same, running] at closed
    cases closed
  · refine ⟨fun ending closed => ?_, 0, succeeded⟩
    obtain ⟨other, same, done⟩ := succeeded
    rw [found', Option.some.injEq] at same
    rw [same, done] at closed
    exact (Phase.closed.inj closed).symm

/-- For every run and every pass. A pass that was not polled logs nothing. A pass that was logs how
many entries it took out of the registry of its dispatcher and how many handlers its snapshot
showed, where these numbers are positive; then, if it isolates panics, each panic that ended one of
its calls, under the name read in its first poll; and last that calls went wrong, just if this is
its answer, with the numbers of it. Where the snapshot shows nobody, it logs its sweep at most and
succeeds in the poll that is under way. The first of the numbers is that of the entries that it
took out also when others act between its snapshot and its sweep. -/
theorem pass_log_exact (arity : Arity) (blueprints : List Blueprint) (moves : List Move)
    (p : PassId) :
    let start := Machine.idle arity blueprints
    let w := (start.run moves).world
    (match start.openingOf p moves with
    | none => w.logOf p = []
    | some opening =>
        ∃ first pass, opening.passes[p]? = some first ∧ w.passes[p]? = some pass ∧
          pass.dispatcher = first.dispatcher ∧
          let d := pass.dispatcher
          let name := (w.settings d).name
          let live := (opening.snapshotOf d).live
          let evicted := (opening.registry d).size - ((opening.openPass p first).1.registry d).size
          w.settings d = opening.settings d ∧
          (∀ record ∈ w.logOf p, record.dispatcher = name) ∧
          match opening.readNames live with
          | .error payload =>
              pass.phase = .closed (.panicked payload) ∧
              w.logOf p = Record.preamble name evicted live.length
          | .ok names =>
              let caught := if (w.settings d).isolatePanics then start.panicsIn p moves else []
              (∀ panic ∈ caught, panic.1 < names.length) ∧
              w.logOf p = Record.preamble name evicted live.length ++
                (caught.map fun panic =>
                  Record.panicked name (names.getD panic.1 "") panic.2.info) ++
                Record.verdict name pass.phase ∧
              (live = [] → w.logOf p = Record.preamble name evicted 0 ∧
                (∀ ending, pass.phase = .closed ending → ending = .completed none) ∧
                ∃ n, (start.run (moves ++ List.replicate n .tick)).world.Succeeded p)) ∧
    ∀ (v : World) (d : DispatcherId) (others : List Action),
      let amid := ((v.retainAll (v.snapshotOf d).live).performAll others).1
      let after := v.surveyAmid p d others
      ∃ told, after.announced p = told ++ v.announced p ∧
        told.reverse.filterMap (Event.record? after.nameOf) =
          Record.preamble (after.nameOf d) ((amid.registry d).size - (after.registry d).size)
            (v.snapshotOf d).live.length := by
  intro start w
  refine ⟨?_, fun v d others => ⟨_, by rw [World.announced_surveyAmid, if_pos rfl],
    World.records_surveyEvents v p d _ _⟩⟩
  have steady : start.Steady := Machine.steady_idle arity blueprints
  have caught : w.caughtOf p = ((start.panicsIn p moves).filterMap (w.catches p)).reverse :=
    (Machine.caughtOf_run steady p moves).trans (List.append_nil _)
  cases opens : start.openingOf p moves with
  | none =>
    have unopened : w.Unopened p :=
      Machine.run_unopened steady opens (by simp [World.Unopened, start, Machine.idle])
    exact World.logOf_of_unopened unopened (Machine.announced_of_never arity blueprints opens).1
  | some opening =>
    obtain ⟨before, after, rfl, never, is_opening, rfl⟩ := Machine.openingOf_first opens
    obtain ⟨reached, first, found, fresh, leads⟩ := Machine.run_opened steady opens
    have silent := Machine.announced_of_fresh arity blueprints never found fresh
    have step : (start.run before).world.Progress
        ((start.run before).world.openPass p first).1 := .opening found fresh
    have settings := World.Leads.settings (leads.head step) (reached.belongs found)
    cases read : (start.run before).world.readNames
        ((start.run before).world.snapshotOf first.dispatcher).live with
    | error payload =>
      obtain ⟨found', log⟩ := World.logOf_of_refused reached found fresh silent leads caught read
      refine ⟨first, _, found, found', rfl, settings, ?_, ?_⟩
      · rw [log]
        exact Record.preamble_dispatcher _ _ _
      · rw [read]
        exact ⟨rfl, log⟩
    | ok names =>
      obtain ⟨pass, found', -, same⟩ := World.Leads.keeps (leads.head step) found
      have opened := World.Leads.opened leads (World.opened_of_names found read)
      have small : ∀ panic ∈ start.panicsIn p (before ++ .tick :: after),
          panic.1 < names.length := by
        intro panic member
        have bound := Machine.panicsIn_lt steady opened panic member
        rwa [List.length_zip, World.length_names read, Nat.min_self] at bound
      have log := World.logOf_of_named found silent leads caught read found' same small
      refine ⟨first, pass, found, found', same, same ▸ settings, ?_, ?_⟩
      · intro record member
        rw [log, List.mem_append, List.mem_append, List.mem_map] at member
        rcases member with (told | ⟨panic, -, rfl⟩) | told
        · exact Record.preamble_dispatcher _ _ _ record told
        · rfl
        · exact Record.verdict_dispatcher _ _ record told
      · rw [same] at log ⊢
        rw [read]
        refine ⟨fun panic member => small panic ?_, log, fun nobody => ?_⟩
        · split at member
          · exact member
          · cases member
        · obtain ⟨well, ends⟩ := Machine.run_nobody steady is_opening found nobody found'
          have nameless : names.length = 0 := by rw [← World.length_names read, nobody]; rfl
          have calm := World.panics_nil nameless small
          have unfailed : Record.verdict (w.settings first.dispatcher).name pass.phase = [] :=
            Record.verdict_of_well fun total failures failed => by simpa using well _ failed
          refine ⟨?_, well, ends⟩
          rw [log, calm, nobody, unfailed, ite_self, List.map_nil, List.append_nil,
            List.append_nil, List.length_nil]

end Fanout
