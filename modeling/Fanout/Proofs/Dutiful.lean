import Fanout.Proofs.Turns

/-! Every move is dutiful. The poll of an outermost pass goes on, tick by tick, until something has
come out of the pass or it comes to rest, and no move in between lets anybody down who is to be
polled. -/
namespace Fanout
namespace Machine
open World
variable {w : World} {p : PassId} {frame : Frame} {outer : List Frame}

/-- The poll of the pass goes on, or something has come out of it. -/
def Goes (b : PassId) (m : Machine) : Prop :=
  m.control.focus.outermost = some b ∨ (∃ payload, m.control = .ending (.panicked payload) []) ∨
    ∃ ending, m.control = .settled (some ending)

theorem pause_goes {w : World} {frame : Frame} (there : frame.pass < w.passes.length)
    (outer : List Frame) : Goes (bottom frame.pass outer) (pause frame outer w) := by
  have crowded : ∀ (pass : Pass) (turn : Turn), turn.pass = frame.pass →
      Goes (bottom frame.pass outer)
        (if breaksOff pass turn then ⟨w.rouse pass.lineage, .leaving frame.pass outer⟩
          else ⟨w, .choosing turn outer⟩) := by
    intro pass turn same
    split
    · exact .inl rfl
    · exact .inl (congrArg (fun q => some (bottom q outer)) same)
  unfold pause
  rw [List.getElem?_eq_getElem there]
  dsimp only
  split
  · exact crowded _ _ rfl
  · exact .inl rfl

theorem deliver_goes (stacked : Stacked w.passes p outer) (error : Option DispatchError) :
    Goes (bottom p outer) (deliver w error outer) := by
  cases stacked with
  | outermost p => exact .inr (.inr ⟨_, rfl⟩)
  | @within _ frame frames pass found running waits _ =>
    obtain ⟨⟨handler, name, status⟩, number, propagate, rest, at_position, rfl⟩ := waits
    unfold deliver
    simp only [(IsCall.mk found running at_position).call?]
    split <;> exact .inl rfl

theorem choose_goes (reached : w.Reached) {turn : Turn}
    (turning : Turning w.passes turn.pass outer) :
    Goes (bottom turn.pass outer) (choose w turn outer) := by
  obtain ⟨pass, found, -⟩ := turning.running
  unfold choose
  split
  · split
    · split <;> exact .inl rfl
    · exact .inl rfl
  · unfold endTurn
    simp only [found]
    split
    · have passes := passes_close found (.completed pass.error?)
      exact deliver_goes (passes ▸ turning.stacked.set reached.linked _) _
    · exact .inl rfl

theorem length_setStatus (w : World) (p : PassId) (i : Nat) (status : Status) :
    (w.setStatus p i status).passes.length = w.passes.length := List.length_modify ..

theorem yield_goes {w : World} {frame : Frame} (there : frame.pass < w.passes.length)
    (outer : List Frame) : Goes (bottom frame.pass outer) (yield frame outer w) :=
  pause_goes ((passes_wake w frame.callId).symm ▸ there) outer

theorem afterStep_goes {frame : Frame} {number : Nat} {rest : Script} {result : World × Effect}
    (there : frame.pass < result.1.passes.length) (outer : List Frame) :
    Goes (bottom frame.pass outer) (afterStep frame outer number rest result) := by
  unfold afterStep
  split
  · exact .inl rfl
  · exact yield_goes ((length_setStatus ..).symm ▸ there) outer
  · exact .inl rfl

theorem visitRunning_goes {pass : Pass} {call : Call} {number : Nat} {before : Await}
    {todo : Script} (call_of : w.IsCall frame.pass frame.call pass call) :
    Goes (bottom frame.pass outer)
      (visitRunning w frame outer pass call.handler number before todo) := by
  have there := (List.getElem?_eq_some_iff.mp call_of.found).1
  unfold visitRunning
  split
  · split
    · have taken := take_taken (i := frame.call) call_of.found call.handler
      refine afterStep_goes ?_ outer
      exact (List.getElem?_eq_some_iff.mp ((taken _).kept _ _ call_of.found)).1
    · exact .inl rfl
  · exact yield_goes ((length_setStatus ..).symm ▸ there) outer
  · exact .inl rfl
  · split
    · exact .inl rfl
    · have deed := Deed.await w frame.callId pass.token before
      exact pause_goes (deed.passes.symm ▸ there) outer

theorem visit_goes {pass : Pass} {call : Call}
    (call_of : w.IsCall frame.pass frame.call pass call)
    (unfinished : call.status.isUnfinished = true) :
    Goes (bottom frame.pass outer) (visit w frame outer pass call) := by
  have there := (List.getElem?_eq_some_iff.mp call_of.found).1
  unfold visit
  cases status : call.status with
  | idle =>
    cases pass.permits with
    | none => exact .inl rfl
    | some permits =>
      dsimp only
      split
      · exact .inl rfl
      · refine pause_goes ?_ outer
        rw [length_setStatus]
        exact (List.length_modify ..).symm ▸ there
  | queued => exact pause_goes there outer
  | granted => exact .inl rfl
  | running number await rest => exact visitRunning_goes call_of
  | finished error => simp [status, Status.isUnfinished] at unfinished
  | abandoned => simp [status, Status.isUnfinished] at unfinished

theorem poll_goes (turning : Turning w.passes frame.pass outer)
    (pending : IsPending w.passes frame.pass frame.call) :
    Goes (bottom frame.pass outer) (poll w frame outer) := by
  obtain ⟨pass, call, found, at_position, unfinished⟩ := pending
  have call_of : w.IsCall frame.pass frame.call pass call :=
    ⟨found, turning.phase found, at_position⟩
  unfold poll
  simp only [found, call_of.call?]
  exact visit_goes call_of unfinished

theorem ending_goes (w : World) (p : PassId) (payload : Payload) (outer : List Frame) :
    Goes (bottom p outer) ⟨w, .ending (.panicked payload) outer⟩ := by
  cases outer with
  | nil => exact .inr (.inl ⟨payload, rfl⟩)
  | cons frame outer => exact .inl rfl

theorem enter_goes (outer : List Frame) (isOpen : IsOpen w.passes p) :
    Goes (bottom p outer) (enter w p outer) := by
  obtain ⟨pass, found, isOpen⟩ := isOpen
  unfold enter
  simp only [found]
  split
  · unfold afterOpening
    split
    · exact .inl rfl
    · exact ending_goes ..
  · exact .inl rfl
  · rename_i closed
    simp [closed, Phase.isOpen] at isOpen

theorem enter_closed (closed : ¬ IsOpen w.passes p) : enter w p outer = stuck w := by
  unfold enter
  split
  · rename_i pass found
    split
    · rename_i fresh
      exact absurd ⟨pass, found, by simp [fresh, Phase.isOpen]⟩ closed
    · rename_i running
      exact absurd ⟨pass, found, by simp [running, Phase.isOpen]⟩ closed
    · rfl
  · rfl

theorem conclude_goes (concluding : Concluding w.passes (frame :: outer)) (verdict : Verdict) :
    Goes (bottom frame.pass outer) (conclude w verdict (frame :: outer)) := by
  obtain ⟨-, pass, call, found, at_position, -⟩ := concluding
  unfold conclude
  simp only [found, call?_of_found found, at_position]
  split
  · exact .inl rfl
  · split
    · exact .inl rfl
    · exact ending_goes ..

def FromOutside (m : Machine) : Prop :=
  ∀ p, m.control.focus.outermost = some p → m.world.isOutermost p = true

theorem rooted_of_isOutermost {p : PassId} {outer : List Frame}
    (outermost : w.isOutermost (bottom p outer) = true) : Rooted w.passes p outer := by
  rintro rfl pass found
  have here : w.passes[bottom p []]? = some pass := found
  simpa [isOutermost, here] using outermost

theorem isOutermost_of_leads {w' : World} (leads : w.Leads w') {p : PassId}
    (h : w.isOutermost p = true) : w'.isOutermost p = true := by
  unfold isOutermost at h ⊢
  split at h
  · rename_i pass found
    obtain ⟨pass', found', lineage, -⟩ := leads.keeps found
    rw [found']
    simpa [lineage] using h
  · cases h

/-- What every machine of a run is, moreover. -/
structure Dutiful (m : Machine) : Prop extends m.Steady, m.Diligent where
  outside : m.FromOutside

theorem Dutiful.tick {m : Machine} (h : m.Dutiful) : m.tick.Diligent := by
  obtain ⟨w, control⟩ := m
  obtain ⟨⟨reached, positioned⟩, diligent, outside⟩ := h
  match control with
  | .entering p outer =>
    exact enter_diligent reached positioned (rooted_of_isOutermost (outside _ rfl)) diligent.heeds
  | .choosing turn outer =>
    exact choose_diligent reached positioned (rooted_of_isOutermost (outside _ rfl)) diligent.heeds
  | .polling frame outer => exact poll_diligent reached positioned diligent.heeds diligent.ready
  | .leaving p outer => exact leave_diligent reached positioned diligent.heeds
  | .ending verdict frames =>
    refine conclude_diligent reached positioned ?_ diligent
    rintro frame outer rfl
    exact rooted_of_isOutermost (outside _ rfl)
  | .settled ending => exact diligent

theorem Ready.mono {m : Machine} (h : m.Ready) {w : World}
    (keep : ∀ (q : PassId) (pass : Pass),
      m.world.passes[q]? = some pass → w.passes[q]? = some pass) : Ready ⟨w, m.control⟩ := by
  obtain ⟨v, control⟩ := m
  match control with
  | .polling frame outer =>
    obtain ⟨pass, call, found, rest⟩ := h
    exact ⟨pass, call, keep _ pass found, rest⟩
  | .entering _ _ | .choosing _ _ | .leaving _ _ | .settled _ => trivial
  | .ending verdict [] => exact h
  | .ending verdict (frame :: outer) => trivial

theorem eq_of_isSettled {m : Machine} (h : m.isSettled = true) :
    ∃ w ending, m = ⟨w, .settled ending⟩ := by
  obtain ⟨w, control⟩ := m
  cases control with
  | settled ending => exact ⟨w, ending, rfl⟩
  | _ => simp [isSettled] at h

theorem drop_diligent (reached : w.Reached) (outermost : w.isOutermost p = true)
    {ending : Option Ending} (h : Diligent ⟨w, .settled ending⟩) :
    Diligent ⟨w.abandon p .dropped, .settled ending⟩ := by
  have closes := w.closes_abandon p .dropped
  have paired : Paired (w.abandon p .dropped).passes (innermost []) :=
    paired_abandon reached.linked h.heeds.paired nofun (.outermost p)
      (rooted_of_isOutermost outermost) .dropped
  exact ⟨h.heeds.calm closes.waking paired closes.calms, trivial⟩

theorem Dutiful.move {m : Machine} (h : m.Dutiful) (move : Move) : (m.move move).Diligent := by
  have at_once : ∀ {after : World}, after.passes = m.world.passes → m.world.Signals after →
      (⟨after, m.control⟩ : Machine).Diligent := by
    intro after same signals
    have rouses := signals.rouses same h.heeds.paired.attended h.reached.linked.descending
      h.reached.sound h.heeds.attentive.toOrderly
    exact ⟨h.heeds.rouses rouses, h.ready.mono fun _ _ found => same.symm ▸ found⟩
  cases move with
  | tick => exact h.tick
  | act action => exact at_once (passes_perform m.world action) (perform_signals m.world action)
  | start summons =>
    unfold Machine.move
    dsimp only
    split
    · rename_i p started hs
      obtain ⟨d, token, -, hs⟩ := summon_eq_ok hs
      cases hs
      exact ⟨h.heeds.calm rfl (h.heeds.paired.append rfl) (.append rfl rfl),
        h.ready.mono fun _ _ found => getElem?_append_of_some found _⟩
    · exact h.toDiligent
  | poll p =>
    unfold Machine.move
    dsimp only
    split
    · rename_i may
      obtain ⟨w, ending, rfl⟩ := eq_of_isSettled (Bool.and_eq_true _ _ ▸ may).1
      exact toPoll_diligent h.heeds p
    · exact h.toDiligent
  | suspend =>
    obtain ⟨w, control⟩ := m
    unfold Machine.move
    dsimp only
    split
    · exact rest_diligent h.heeds none
    · exact h.toDiligent
  | drop p =>
    unfold Machine.move
    dsimp only
    split
    · rename_i may
      obtain ⟨settled, outermost⟩ := Bool.and_eq_true _ _ ▸ may
      obtain ⟨w, ending, rfl⟩ := eq_of_isSettled settled
      exact drop_diligent h.reached outermost h.toDiligent
    · exact h.toDiligent
  | reorder d order =>
    exact at_once (Deed.reorder m.world d order).passes (.inl (waking_reorder m.world d order))

/-- The outermost pass has to wait, and was not woken in its turn: its poll comes to rest. -/
def Rests (m : Machine) (b : PassId) : Prop :=
  m.control = .leaving b [] ∧ m.world.waking.again = false

theorem leave_goes (stacked : Stacked w.passes p outer) :
    Goes (bottom p outer) (leave w p outer) ∨
      (outer = [] ∧ w.waking.again = false) ∧ leave w p outer = ⟨w, .settled none⟩ := by
  cases stacked with
  | outermost p =>
    unfold leave
    dsimp only
    split
    · exact .inl (.inl rfl)
    · rename_i rests
      exact .inr ⟨⟨rfl, Bool.eq_false_of_not_eq_true rests⟩, rfl⟩
  | within found running waits around =>
    exact .inl (pause_goes (List.getElem?_eq_some_iff.mp found).1 _)

/-- A poll goes on until something has come out of the pass, or it comes to rest; only a pass that
is closed is not polled at all. -/
theorem Dutiful.goes {m : Machine} (h : m.Dutiful) {b : PassId}
    (polled : m.control.focus.outermost = some b) : Goes b m.tick ∨
      (m.Rests b ∨ m.control = .entering b [] ∧ ¬ IsOpen m.world.passes b) ∧
        m.tick = ⟨m.world, .settled none⟩ := by
  obtain ⟨w, control⟩ := m
  obtain ⟨⟨reached, positioned⟩, ⟨heeds, ready⟩, -⟩ := h
  match control with
  | .entering p outer =>
    obtain rfl := Option.some.inj polled
    by_cases isOpen : IsOpen w.passes p
    · exact .inl (enter_goes outer isOpen)
    cases positioned with
    | outermost p => exact .inr ⟨.inr ⟨rfl, isOpen⟩, enter_closed isOpen⟩
    | within found running waits around =>
      exact absurd ((heeds.paired.awaited _ _ _ _ found running waits).resolve_left nofun) isOpen
  | .choosing turn outer =>
    obtain rfl := Option.some.inj polled
    exact .inl (choose_goes reached positioned)
  | .polling frame outer =>
    obtain rfl := Option.some.inj polled
    exact .inl (poll_goes positioned ready)
  | .leaving p outer =>
    obtain rfl := Option.some.inj polled
    refine (leave_goes positioned).imp id ?_
    rintro ⟨⟨rfl, rests⟩, settled⟩
    exact ⟨.inl ⟨rfl, rests⟩, settled⟩
  | .ending verdict (frame :: outer) =>
    obtain rfl := Option.some.inj polled
    exact .inl (conclude_goes positioned verdict)
  | .ending verdict [] | .settled ending => cases polled

/-- No tick begins the poll of another outermost pass. -/
theorem Dutiful.tick_outermost {m : Machine} (h : m.Dutiful) :
    m.tick.control.focus.outermost = none ∨
      m.tick.control.focus.outermost = m.control.focus.outermost := by
  cases polled : m.control.focus.outermost with
  | some b =>
    rcases h.goes polled with (same | ⟨payload, ends⟩ | ⟨ending, ends⟩) | ⟨-, ends⟩
    · exact .inr same
    all_goals exact .inl (by rw [ends]; rfl)
  | none =>
    obtain ⟨w, control⟩ := m
    match control with
    | .settled ending => exact .inl rfl
    | .ending (.panicked payload) [] => exact .inl rfl
    | .ending (.returned error) [] => exact .inl rfl
    | .entering _ _ | .choosing _ _ | .polling _ _ | .leaving _ _ | .ending _ (_ :: _) =>
      cases polled

theorem move_outside {m : Machine} (h : m.Dutiful) (move : Move) :
    (m.move move).FromOutside := by
  have leads := (move_steady h.toSteady move).1
  -- what was polled before is polled still, or nothing is, or a poll begins
  have still : (m.move move).control.focus.outermost = none ∨
      (m.move move).control.focus.outermost = m.control.focus.outermost →
        (m.move move).FromOutside := by
    rintro (rests | same) p outermost
    · rw [rests] at outermost
      cases outermost
    · exact isOutermost_of_leads leads (h.outside p (same ▸ outermost))
  cases move with
  | tick => exact still h.tick_outermost
  | act action => exact still (.inr rfl)
  | start summons =>
    refine still (.inr ?_)
    unfold Machine.move
    dsimp only
    split <;> rfl
  | poll p =>
    by_cases may : (m.isSettled && m.world.isOutermost p) = true
    · have begun : m.move (.poll p) = toPoll m.world p := if_pos may
      rw [begun]
      rintro q ⟨⟩
      exact (Bool.and_eq_true _ _ ▸ may).2
    · have same : m.move (.poll p) = m := if_neg may
      exact still (.inr (by rw [same]))
  | suspend =>
    refine still ?_
    unfold Machine.move
    dsimp only
    split
    · exact .inl rfl
    · exact .inr rfl
  | drop p =>
    refine still (.inr ?_)
    unfold Machine.move
    dsimp only
    split <;> rfl
  | reorder d order => exact still (.inr rfl)

theorem dutiful_idle (arity : Arity) (blueprints : List Blueprint) :
    (idle arity blueprints).Dutiful where
  toSteady := steady_idle arity blueprints
  heeds := by
    refine ⟨.nil, ⟨nofun, nofun⟩, ?_⟩
    rintro call callers ⟨pass, c, found, -⟩
    simp [Control.focus, scene, idle] at found
  ready := trivial
  outside := nofun

theorem run_dutiful {m : Machine} (h : m.Dutiful) (moves : List Move) : (m.run moves).Dutiful := by
  induction moves generalizing m with
  | nil => exact h
  | cons move moves ih =>
    exact ih { toSteady := (move_steady h.toSteady move).2, toDiligent := h.move move,
               outside := move_outside h move }

end Machine
end Fanout
