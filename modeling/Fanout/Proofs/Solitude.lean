import Fanout.Proofs.Settling

/-! The opening of a pass that is alone. If the handlers that it finds alive are independent and can
be asked for their names, it holds one call of each when it is opened, and then its poll goes on
until it is over. -/
namespace Fanout
namespace World

theorem find?_retainAll {hs : List HandlerId} (distinct : hs.Nodup) (w : World) (h : HandlerId) :
    (w.retainAll hs).handlers.find? h =
      if h ∈ hs then
        (w.handlers.find? h).map fun handler => { handler with strong := handler.strong + 1 }
      else w.handlers.find? h := by
  induction hs generalizing w with
  | nil => simp [retainAll]
  | cons k ks ih =>
    obtain ⟨apart, distinct⟩ := List.nodup_cons.mp distinct
    refine (ih distinct (w.retain k)).trans ?_
    simp only [retain, modifyHandler, Roster.find?_modify]
    by_cases same : k = h
    · subst same
      rw [if_neg apart, if_pos rfl, if_pos List.mem_cons_self]
    · simp only [if_neg same, List.mem_cons, Ne.symm same, false_or]

theorem cancelled_retainAll (w : World) (hs : List HandlerId) :
    (w.retainAll hs).cancelled = w.cancelled := by
  induction hs generalizing w with
  | nil => rfl
  | cons h hs ih => exact ih (w.retain h)

/-- A survey leaves no traces, and does to the handlers what the references do. -/
theorem survey_frame (w : World) (p : PassId) (d : DispatcherId) :
    (w.survey p d).handlers = (w.retainAll (w.snapshotOf d).live).handlers ∧
      (w.survey p d).cancelled = w.cancelled ∧
      ∀ h, (w.survey p d).tracesOf h = w.tracesOf h := by
  have same : ∀ h, (w.retainAll (w.snapshotOf d).live).tracesOf h = w.tracesOf h := by
    intro h
    rw [tracesOf, history_retainAll]
    rfl
  unfold survey sweep
  dsimp only
  split
  · refine ⟨rfl, cancelled_retainAll .., fun h => ?_⟩
    rw [tracesOf_record]
    exact (List.append_nil _).trans (same h)
  · refine ⟨rfl, cancelled_retainAll .., fun h => ?_⟩
    unfold purge
    rw [tracesOf_record, tracesOf_record]
    exact (List.append_nil _).trans ((List.append_nil _).trans (same h))

/-- A survey takes one reference to each handler that it finds alive. -/
theorem find?_survey {w : World} {d : DispatcherId} (distinct : (w.snapshotOf d).live.Nodup)
    (p : PassId) (h : HandlerId) : (w.survey p d).handlers.find? h =
      if h ∈ (w.snapshotOf d).live then
        (w.handlers.find? h).map fun handler => { handler with strong := handler.strong + 1 }
      else w.handlers.find? h := by
  rw [(survey_frame w p d).1]
  exact find?_retainAll distinct w h

/-- A snapshot shows handlers that are there. -/
theorem found_of_live {w : World} {d : DispatcherId} {h : HandlerId}
    (live : h ∈ (w.snapshotOf d).live) :
    ∃ handler, w.handlers.find? h = some handler ∧ handler.alive = true := by
  have alive := alive_of_mem_live live
  unfold World.alive at alive
  split at alive
  · rename_i handler found
    exact ⟨handler, found, alive⟩
  · cases alive

/-- The handlers that a pass on this dispatcher would call if it were opened now. -/
def callees (w : World) (d : DispatcherId) : List Handler :=
  (w.snapshotOf d).live.filterMap w.handlers.find?

/-- What the pass would call are independent handlers that can be asked for their names, and it would
not come down by a panic of theirs. -/
structure Solitary (w : World) (pass : Pass) : Prop where
  independent : ∀ handler ∈ w.callees pass.dispatcher, (handler.script handler.begun).Independent
  named : ∀ handler ∈ w.callees pass.dispatcher, handler.naming.read.isOk = true
  contained : (w.settings pass.dispatcher).isolatePanics = true ∨
    ∀ handler ∈ w.callees pass.dispatcher, ∃ error,
      (handler.script handler.begun).verdict pass.occasion (w.isCancelled pass.token) =
        .returned error

def partOf? (w : World) (h : HandlerId) : Option Part :=
  (w.handlers.find? h).map fun handler =>
    { handler := h, name := handler.naming.read.toOption.getD "", origin := handler }

def parts (w : World) (d : DispatcherId) : List Part := (w.snapshotOf d).live.filterMap w.partOf?

variable {w : World} {d : DispatcherId} {p : PassId} {pass : Pass}

theorem handlers_parts (w : World) (d : DispatcherId) :
    (w.parts d).map Part.handler = (w.snapshotOf d).live := by
  have all : ∀ hs : List HandlerId, (∀ h ∈ hs, ∃ handler, w.handlers.find? h = some handler) →
      (hs.filterMap w.partOf?).map Part.handler = hs := by
    intro hs there
    induction hs with
    | nil => rfl
    | cons h hs ih =>
      obtain ⟨handler, found⟩ := there h List.mem_cons_self
      have rest := ih fun k hk => there k (List.mem_cons_of_mem _ hk)
      simp [partOf?, found, rest]
  refine all _ fun h live => ?_
  obtain ⟨handler, found, -⟩ := found_of_live live
  exact ⟨handler, found⟩

theorem mem_parts {part : Part} (member : part ∈ w.parts d) :
    part.handler ∈ (w.snapshotOf d).live ∧
      w.handlers.find? part.handler = some part.origin ∧ part.origin ∈ w.callees d := by
  obtain ⟨h, live, made⟩ := List.mem_filterMap.mp member
  obtain ⟨handler, found, rfl⟩ := Option.map_eq_some_iff.mp made
  exact ⟨live, found, List.mem_filterMap.mpr ⟨h, live, found⟩⟩

theorem readNames_parts (named : ∀ handler ∈ w.callees d, handler.naming.read.isOk = true) :
    w.readNames (w.snapshotOf d).live = .ok ((w.parts d).map Part.name) := by
  have all : ∀ hs : List HandlerId, (∀ h ∈ hs, ∃ handler, w.handlers.find? h = some handler ∧
      handler.naming.read.isOk = true) →
        w.readNames hs = .ok ((hs.filterMap w.partOf?).map Part.name) := by
    intro hs there
    induction hs with
    | nil => rfl
    | cons h hs ih =>
      obtain ⟨handler, found, readable⟩ := there h List.mem_cons_self
      have rest := ih fun k hk => there k (List.mem_cons_of_mem _ hk)
      cases read : handler.naming.read with
      | error payload => rw [read] at readable; cases readable
      | ok name =>
        simp [readNames, partOf?, found, read, rest, Except.map, Except.toOption]
  refine all _ fun h live => ?_
  obtain ⟨handler, found, -⟩ := found_of_live live
  exact ⟨handler, found, named handler (List.mem_filterMap.mpr ⟨h, live, found⟩)⟩

/-- The pass on its own, as it would be from its opening on. -/
def Solitary.solo (solitary : w.Solitary pass) (p : PassId)
    (distinct : (w.snapshotOf pass.dispatcher).live.Nodup) : Solo where
  before := w
  dispatchers := (w.setRegistry pass.dispatcher
    ((w.registry pass.dispatcher).purge w.alive).2).dispatchers
  pass := p
  dispatcher := pass.dispatcher
  token := pass.token
  occasion := pass.occasion
  parts := w.parts pass.dispatcher
  distinct := by
    rw [handlers_parts]
    exact distinct
  alive part member := by
    obtain ⟨live, found, -⟩ := mem_parts member
    obtain ⟨handler, found', alive⟩ := found_of_live live
    rw [found, Option.some.injEq] at found'
    exact found' ▸ alive
  independent part member := solitary.independent _ (mem_parts member).2.2
  contained := by
    refine solitary.contained.imp (fun isolated => ?_) fun none_panics part member =>
      none_panics _ (mem_parts member).2.2
    rwa [← settings_setRegistry w pass.dispatcher pass.dispatcher] at isolated

/-- After the survey each handler that will be called has its reference, and has told nothing. -/
theorem Solitary.surveyed_fits (solitary : w.Solitary pass) (p : PassId)
    (distinct : (w.snapshotOf pass.dispatcher).live.Nodup) {part : Part}
    (member : part ∈ w.parts pass.dispatcher) :
    (solitary.solo p distinct).Fits (w.survey p pass.dispatcher) part .idle := by
  obtain ⟨live, there, -⟩ := mem_parts member
  refine ⟨trivial, ?_, ?_⟩
  · rw [find?_survey distinct, if_pos live, there]
    rfl
  · rw [(survey_frame w p pass.dispatcher).2.2]
    rfl

/-- When the pass is opened, all of its calls are ahead, and due. -/
theorem Solitary.opened (solitary : w.Solitary pass) (found : w.passes[p]? = some pass)
    (fresh : pass.phase = .fresh) (outermost : pass.lineage = []) (sound : pass.Sound)
    (distinct : (w.snapshotOf pass.dispatcher).live.Nodup) :
    (w.openPass p pass).2 = none ∧ ∃ pass',
      (solitary.solo p distinct).Underway (w.openPass p pass).1 pass' ∧
        (solitary.solo p distinct).Attends (w.openPass p pass).1 pass' none := by
  have named := readNames_parts solitary.named
  have read := (readNames_survey w p pass.dispatcher (w.snapshotOf pass.dispatcher).live).trans named
  have opened : (w.openPass p pass).1.passes[p]? = some _ :=
    passes_openPass_ok found read ▸ getElem?_set_of_some _ found
  rw [settings_survey] at opened
  rw [openPass_ok read] at opened ⊢
  have becomes : pass.Becomes p True (fun _ _ => False) none _ :=
    .opened trivial fresh (w.snapshotOf pass.dispatcher).live
      ((w.parts pass.dispatcher).map Part.name) (w.settings pass.dispatcher)
  obtain ⟨-, cancelled, traces⟩ := survey_frame w p pass.dispatcher
  have dispatchers := dispatchers_survey w p pass.dispatcher
  have fits : ∀ part ∈ w.parts pass.dispatcher, (solitary.solo p distinct).Fits
      (w.survey p pass.dispatcher) part .idle :=
    fun _ member => solitary.surveyed_fits p distinct member
  have find? := find?_survey distinct p
  generalize w.survey p pass.dispatcher = surveyed at *
  refine ⟨rfl, _, ⟨opened, ?outline, ?plan, becomes.sound sound, ?metered, dispatchers, cancelled,
    ?fits, ?others⟩, ?attends⟩
  case outline =>
    show ({ pass with phase := .running, calls := [], permits := none } : Pass) = _
    rw [outermost]
    rfl
  case plan =>
    refine (plan_firstCalls pass .running _).trans ?_
    rw [← handlers_parts]
    exact List.zip_map' ..
  case metered =>
    have limit : (solitary.solo p distinct).settings = w.settings pass.dispatcher :=
      settings_setRegistry ..
    rw [limit]
    exact metered_firstCalls pass _ _ _
  case fits =>
    intro i call part at_position at_part
    have first : call ∈ firstCalls (w.snapshotOf pass.dispatcher).live
        ((w.parts pass.dispatcher).map Part.name) := List.mem_of_getElem? at_position
    rw [idle_of_mem_firstCalls first]
    exact (fits part (List.mem_of_getElem? at_part)).congr rfl rfl
  case others =>
    intro h outside
    have absent : h ∉ (w.snapshotOf pass.dispatcher).live :=
      fun live => outside ((handlers_parts w pass.dispatcher).symm ▸ live)
    exact ⟨(find? h).trans (if_neg absent), traces h⟩
  case attends =>
    intro i call at_position _ _
    obtain ⟨inside, -⟩ := List.getElem?_eq_some_iff.mp at_position
    have due : (⟨p, i⟩ : CallId) ∈ (List.range (firstCalls (w.snapshotOf pass.dispatcher).live
        ((w.parts pass.dispatcher).map Part.name)).length).map fun i => ⟨p, i⟩ :=
      List.mem_map.mpr ⟨i, List.mem_range.mpr inside, rfl⟩
    exact .inl (List.mem_append_right _ due)

/-- Who is to be polled makes no difference to what a pass would call. -/
theorem Solitary.setWaking (solitary : w.Solitary pass) (waking : Waking) :
    (w.setWaking waking).Solitary pass :=
  ⟨solitary.independent, solitary.named, solitary.contained⟩

/-- What becomes of the pass in its only poll. -/
def Solitary.course (solitary : w.Solitary pass) (p : PassId)
    (distinct : (w.snapshotOf pass.dispatcher).live.Nodup) : Solo :=
  (solitary.setWaking { w.waking with again := false }).solo p distinct

/-- A pass that is alone is over when it is polled, however many small steps that takes. -/
theorem Solitary.polled (solitary : w.Solitary pass) (found : w.passes[p]? = some pass)
    (fresh : pass.phase = .fresh) (outermost : pass.lineage = []) (sound : pass.Sound)
    (distinct : (w.snapshotOf pass.dispatcher).live.Nodup) :
    ∃ enough after, (∀ fuel, enough ≤ fuel → w.poll? fuel p =
        some (after, some (.completed (solitary.course p distinct).error?))) ∧
      (solitary.course p distinct).Completed after := by
  have awake := solitary.setWaking { w.waking with again := false }
  obtain ⟨opens, pass', underway, attends⟩ := awake.opened found fresh outermost sound distinct
  have first : (Machine.toPoll w p).tick = Machine.beginTurn p []
      ((w.setWaking { w.waking with again := false }).openPass p pass).1 := by
    have here : (w.setWaking { w.waking with again := false }).passes[p]? = some pass := found
    unfold Machine.tick Machine.toPoll
    simp only [Machine.enter, here, fresh]
    unfold Machine.afterOpening
    split
    · rename_i opened hs
      rw [hs]
    · rename_i closed payload hs
      rw [hs] at opens
      cases opens
  have going : (awake.solo p distinct).Going pass' (Machine.toPoll w p).tick := by
    rw [first]
    exact .choosing (underway.setWaking _) attends
  obtain ⟨fuel, after, settles, completed⟩ := going.settles
  have polled : w.poll? (fuel + 1) p =
      some (after, some (.completed (awake.solo p distinct).error?)) := by
    have settled : Machine.settle (fuel + 1) (Machine.toPoll w p) =
        Machine.settle fuel (Machine.toPoll w p).tick := rfl
    unfold poll?
    rw [settled, settles]
  exact ⟨fuel + 1, after, fun more enough => poll?_of_le polled enough, completed⟩

end World
end Fanout
