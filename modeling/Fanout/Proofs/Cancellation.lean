import Fanout.Log
import Fanout.Proofs.Scripted
import Fanout.Proofs.VeilTurns

/-! Cancellation is only passed through. Whether a token is cancelled is kept for whoever asks, and
nothing else depends on it: two runs in which the same is done but for what is done to tokens, and
whose handlers do not look at tokens, never come apart. -/
namespace Fanout

/-- A step that cancels the token does nothing instead. -/
def Step.hush : Step → Step
  | cancelToken => linger 0
  | step => step

def Veil.ofTokens : Veil where
  step := Step.hush
  cancelled _ := []
  flag _ := false
  history := List.map (Event.shown id id fun _ => false)
  verdict_returned := Veil.verdict_kept
  occasion_arity := Veil.occasion_kept
  contains_cancelled _ _ := rfl
  history_cons _ _ _ := rfl

theorem Veil.ofTokens_showsEndings : Veil.ofTokens.ShowsEndings := ⟨rfl, rfl, fun _ _ => rfl⟩

/-- The step looks at a token: what it comes to depends on whether the token is cancelled. -/
def Step.looks : Step → Bool
  | checkToken => true
  | awaitToken => true
  | act (.cancelled _) _ => true
  | _ => false

theorem Step.hush_hush (step : Step) : step.hush.hush = step.hush := by
  cases step <;> rfl

theorem hush_script (script : Script) :
    (script.map (Step.under .ofTokens)).map (Step.under .ofTokens) =
      script.map (Step.under .ofTokens) := by
  rw [List.map_map]
  exact List.map_congr_left fun step _ => step.hush_hush

theorem Event.under_ofTokens (event : Event) :
    (event.under .ofTokens).under .ofTokens = event.under .ofTokens := by
  cases event with
  | noted p i h note =>
    rcases note with _ | _ | ⟨label, answer⟩
    case did => cases answer <;> rfl
    all_goals rfl
  | _ => rfl

theorem Pass.under_ofTokens (pass : Pass) :
    (pass.under .ofTokens).under .ofTokens = pass.under .ofTokens := by
  simp only [Pass.under, List.map_map, Pass.mk.injEq, true_and, and_true]
  refine ⟨rfl, List.map_congr_left fun call _ => ?_⟩
  obtain ⟨h, name, status⟩ := call
  cases status with
  | running number await rest =>
    simp only [Function.comp_apply, Call.under, Status.under, hush_script]
  | _ => rfl

theorem Handler.under_ofTokens (handler : Handler) :
    (handler.under .ofTokens).under .ofTokens = handler.under .ofTokens := by
  simp only [Handler.under, List.map_map, Handler.mk.injEq, true_and, and_true]
  exact List.map_congr_left fun script _ => hush_script script

theorem Blueprint.under_ofTokens (blueprint : Blueprint) :
    (blueprint.under .ofTokens).under .ofTokens = blueprint.under .ofTokens := by
  simp only [Blueprint.under, List.map_map, Blueprint.mk.injEq, true_and, and_true]
  exact List.map_congr_left fun script _ => hush_script script

namespace World

/-- What is hidden cannot be hidden again. -/
theorem under_ofTokens (w : World) :
    (w.under .ofTokens).under .ofTokens = w.under .ofTokens := by
  have blueprints : (w.blueprints.map (Blueprint.under .ofTokens)).map (Blueprint.under .ofTokens) =
      w.blueprints.map (Blueprint.under .ofTokens) := by
    rw [List.map_map]
    exact List.map_congr_left fun blueprint _ => blueprint.under_ofTokens
  have handlers : (w.handlers.map (Handler.under .ofTokens)).map (Handler.under .ofTokens) =
      w.handlers.map (Handler.under .ofTokens) := by
    simp only [Roster.map, List.map_map, Roster.mk.injEq]
    exact List.map_congr_left fun e _ => congrArg (Prod.mk e.1) e.2.under_ofTokens
  have passes : (w.passes.map (Pass.under .ofTokens)).map (Pass.under .ofTokens) =
      w.passes.map (Pass.under .ofTokens) := by
    rw [List.map_map]
    exact List.map_congr_left fun pass _ => pass.under_ofTokens
  have history : (w.history.map (Event.under .ofTokens)).map (Event.under .ofTokens) =
      w.history.map (Event.under .ofTokens) := by
    rw [List.map_map]
    exact List.map_congr_left fun event _ => event.under_ofTokens
  unfold under
  simp only [blueprints, handlers, passes, World.mk.injEq, true_and]
  exact ⟨rfl, rfl, rfl, history⟩

/-- Nobody waits for a token. -/
def Unheeded (w : World) : Prop := ∀ token call, (.cancellation token, call) ∉ w.waking.waiting

/-- To cancel a token wakes nobody if nobody waits for it. -/
theorem hide_cancelToken {w : World} (unheeded : w.Unheeded) (token : Token) :
    (w.cancelToken token).under .ofTokens = w.under .ofTokens := by
  have nobody : w.waking.waiters (.cancellation token) = [] := by
    simp only [Waking.waiters, List.map_eq_nil_iff, List.filter_eq_nil_iff, decide_eq_true_eq]
    intro e member same
    exact unheeded token e.2 (same ▸ member)
  have stays : w.waking.dismiss (.cancellation token) = w.waking := by
    have kept : w.waking.waiting.filter (fun e => e.1 ≠ .cancellation token) = w.waking.waiting := by
      rw [List.filter_eq_self]
      intro e member
      refine decide_eq_true fun same => unheeded token e.2 ?_
      exact same ▸ member
    simp only [Waking.dismiss, kept]
  unfold cancelToken
  split
  · rfl
  · simp only [signal, nobody, stays, List.foldl_nil]
    rfl

/-- What is done to tokens is done to nothing else, if nobody waits for one. -/
theorem hide_perform {w : World} (unheeded : w.Unheeded) {action : Action}
    (about : action.isAboutToken = true) :
    (w.perform action).1.under .ofTokens = w.under .ofTokens := by
  cases action with
  | cancel name =>
    simp only [perform, attempt]
    cases w.tokenCalled name with
    | error refusal => rfl
    | ok token => exact hide_cancelToken unheeded token
  | cancelled name =>
    simp only [perform, attempt]
    cases w.tokenCalled name <;> rfl
  | _ => cases about

/-- A step that cancels a token comes to the same in a world that hides tokens. -/
theorem hide_take {w : World} (unheeded : w.Unheeded) (p : PassId) (i : Nat) (pass : Pass)
    (h : HandlerId) {step : Step} (about : step.isAboutToken = true) (unseeing : step.looks = false) :
    shownStep .ofTokens (w.take p i pass h step) = shownStep .ofTokens
      ((w.under .ofTokens).take p i (pass.under .ofTokens) h (step.under .ofTokens)) := by
  have hidden := w.under_ofTokens
  cases step with
  | cancelToken =>
    have cancelled := (hide_cancelToken unheeded pass.token).trans hidden.symm
    exact congrArg (·, Effect.goOn .ready) cancelled
  | act action propagate =>
    have same : shownResult .ofTokens (w.perform action) =
        shownResult .ofTokens ((w.under .ofTokens).perform action) := by
      refine Prod.ext_iff.mpr ⟨?_, ?_⟩
      · exact (hide_perform unheeded about).trans
          (hidden.symm.trans (hide_perform (w := w.under .ofTokens) unheeded about).symm)
      · cases action with
        | cancel name =>
          simp only [shownResult, perform, attempt, tokenCalled_under]
          cases w.tokenCalled name <;> rfl
        | cancelled name => cases unseeing
        | _ => cases about
    change shownStep _ (afterAction p i h action propagate (w.perform action)) =
      shownStep _ (afterAction p i h action propagate ((w.under .ofTokens).perform action))
    rw [← afterAction_under, same, afterAction_under]
  | checkToken => cases unseeing
  | awaitToken => cases unseeing
  | _ => cases about

end World

/-- The step that a call comes to when it is polled, if it has begun; a call that waits for its
token has not got over that step. -/
def Status.next? : Status → Option Step
  | running _ .ready (step :: _) => some step
  | running _ .cancellation _ => some .awaitToken
  | _ => none

abbrev World.Unseeing (w : World) : Prop := w.Scripted fun step => step.looks = false

/-- The owner of the world cancels a token, or asks whether one is cancelled. -/
def Move.isAboutToken : Move → Bool
  | act action => action.isAboutToken
  | _ => false

theorem Status.running_of_next? {status : Status} {step : Step} (next : status.next? = some step)
    (unseeing : step.looks = false) :
    ∃ number later, status = .running number .ready (step :: later) := by
  unfold Status.next? at next
  split at next
  · cases next
    exact ⟨_, _, rfl⟩
  · cases next
    cases unseeing
  · cases next

namespace Machine

/-- The step that the call comes to that the machine polls next. -/
def next? (m : Machine) : Option Step :=
  match m.control with
  | .polling frame _ => (m.world.call? frame.pass frame.call).bind fun call => call.status.next?
  | _ => none

theorem under_ofTokens (m : Machine) :
    (m.under .ofTokens).under .ofTokens = m.under .ofTokens := by
  have controls := Control.under_eq Veil.ofTokens_showsEndings
  simp only [under, World.under_ofTokens, controls]

/-- Unless a handler comes to look at a token or to cancel one, a tick does the same whatever is
cancelled. -/
theorem hide_tick {m : Machine}
    (elsewhere : ∀ step, m.next? = some step → step.isAboutToken = false) :
    m.tick.under .ofTokens = (m.under .ofTokens).tick := by
  apply under_tick Veil.ofTokens_showsEndings
  intro frame outer pass call number await rest polls found at_position status
  have next : m.next? = call.status.next? := by
    simp only [next?, polls, at_position, Option.bind_some]
  rw [next, status] at elsewhere
  refine ⟨?_, ?_⟩
  · rintro step later rfl rfl
    have unseeing := elsewhere step rfl
    have same : step.hush = step := by
      cases step <;> first | rfl | cases unseeing
    have seen : step.Seen .ofTokens :=
      ⟨same, fun about => absurd about (by simp [unseeing]), fun _ => rfl, fun _ _ => rfl⟩
    have shown : step.under .ofTokens = step := same
    rw [shown]
    exact m.world.take_under frame.pass frame.call pass call.handler seen
  · rintro rfl
    cases elsewhere .awaitToken rfl

theorem poll_step {w : World} {frame : Frame} {outer : List Frame} {pass : Pass} {call : Call}
    {number : Nat} {step : Step} {later : Script} (found : w.passes[frame.pass]? = some pass)
    (at_position : w.call? frame.pass frame.call = some call)
    (status : call.status = .running number .ready (step :: later)) :
    poll w frame outer = afterStep frame outer number later
      (w.take frame.pass frame.call pass call.handler step) := by
  simp only [poll, found, at_position, visit, status, visitRunning]

/-- A tick in which a handler cancels a token does the same whatever is cancelled, if nobody waits
for a token. -/
theorem hide_cancelling {m : Machine} (unheeded : m.world.Unheeded) {step : Step}
    (next : m.next? = some step) (about : step.isAboutToken = true)
    (unseeing : step.looks = false) :
    m.tick.under .ofTokens = (m.under .ofTokens).tick.under .ofTokens := by
  obtain ⟨w, control⟩ := m
  cases control with
  | polling frame outer =>
    obtain ⟨call, at_position, coming⟩ := Option.bind_eq_some_iff.mp next
    obtain ⟨number, later, status⟩ := Status.running_of_next? coming unseeing
    obtain ⟨pass, found⟩ : ∃ pass, w.passes[frame.pass]? = some pass := by
      cases found : w.passes[frame.pass]? with
      | none => simp [World.call?, found] at at_position
      | some pass => exact ⟨pass, rfl⟩
    have found' : (w.under .ofTokens).passes[frame.pass]? = some (pass.under .ofTokens) := by
      rw [World.getElem?_passes_under, found]
      rfl
    have at_position' : (w.under .ofTokens).call? frame.pass frame.call =
        some (call.under .ofTokens) := by
      rw [World.call?_under, at_position]
      rfl
    have status' : (call.under .ofTokens).status = .running number .ready
        (step.under .ofTokens :: later.map (Step.under .ofTokens)) := by
      simp only [Call.under, status, Status.under, List.map_cons]
    calc (poll w frame outer).under .ofTokens
      _ = afterStep frame outer number (later.map (Step.under .ofTokens)) (World.shownStep .ofTokens
            (w.take frame.pass frame.call pass call.handler step)) := by
        rw [poll_step found at_position status, under_afterStep]
      _ = afterStep frame outer number (later.map (Step.under .ofTokens)) (World.shownStep .ofTokens
            ((w.under .ofTokens).take frame.pass frame.call (pass.under .ofTokens) call.handler
              (step.under .ofTokens))) := by
        rw [World.hide_take unheeded _ _ _ _ about unseeing]
      _ = (poll (w.under .ofTokens) frame outer).under .ofTokens := by
        rw [poll_step found' at_position' status', under_afterStep, hush_script]
        rfl
  | _ => cases next

theorem unheeded_of_unseeing {w : World} (unseeing : w.Unseeing) : w.Unheeded :=
  fun token call waits => Bool.noConfusion (unseeing.waiting token call waits)

theorem looks_of_next? {m : Machine} (unseeing : m.world.Unseeing) {step : Step}
    (next : m.next? = some step) : step.looks = false := by
  unfold next? at next
  split at next
  · obtain ⟨call, at_position, coming⟩ := Option.bind_eq_some_iff.mp next
    have permitted := unseeing.call at_position
    unfold Status.next? at coming
    split at coming
    · rename_i status
      rw [status] at permitted
      cases coming
      exact permitted.2 step List.mem_cons_self
    · rename_i status
      rw [status] at permitted
      cases coming
      exact permitted.1 rfl
    · cases coming
  · cases next

theorem unseeing_tick {m : Machine} (unseeing : m.world.Unseeing) :
    m.tick.under .ofTokens = (m.under .ofTokens).tick.under .ofTokens := by
  by_cases elsewhere : ∀ step, m.next? = some step → step.isAboutToken = false
  · rw [← hide_tick elsewhere, under_ofTokens]
  · simp only [not_forall, Bool.not_eq_false] at elsewhere
    obtain ⟨step, next, about⟩ := elsewhere
    exact hide_cancelling (unheeded_of_unseeing unseeing) next about (looks_of_next? unseeing next)

/-- Every other move does the same whatever is cancelled. -/
theorem unseeing_move {m : Machine} (unseeing : m.world.Unseeing) {move : Move}
    (other : move.isAboutToken = false) :
    (m.move move).under .ofTokens = ((m.under .ofTokens).move move).under .ofTokens := by
  by_cases ticks : move = .tick
  · exact ticks ▸ unseeing_tick unseeing
  · have same : (m.move move).under .ofTokens = (m.under .ofTokens).move move := by
      refine under_move m ticks ?_
      rintro action rfl about
      exact Bool.noConfusion ((show action.isAboutToken = false from other).symm.trans about)
    rw [← same, under_ofTokens]

theorem unseeing_move_about {m : Machine} (unseeing : m.world.Unseeing) {move : Move}
    (about : move.isAboutToken = true) : (m.move move).under .ofTokens = m.under .ofTokens := by
  cases move with
  | act action =>
    exact congrArg (Machine.mk · _) (World.hide_perform (unheeded_of_unseeing unseeing) about)
  | _ => cases about

/-- What is done to tokens may be left out of a run. -/
theorem run_without {m m' : Machine} (unseeing : m.world.Unseeing) (unseeing' : m'.world.Unseeing)
    (alike : m.under .ofTokens = m'.under .ofTokens) (moves : List Move) :
    (m.run moves).under .ofTokens =
      (m'.run (moves.filter (!·.isAboutToken))).under .ofTokens := by
  induction moves generalizing m m' with
  | nil => exact alike
  | cons move moves ih =>
    cases about : move.isAboutToken with
    | true =>
      rw [List.filter_cons_of_neg (by simp [about])]
      exact ih (move_scripted unseeing move) unseeing'
        ((unseeing_move_about unseeing about).trans alike)
    | false =>
      rw [List.filter_cons_of_pos (by simp [about])]
      refine ih (move_scripted unseeing move) (move_scripted unseeing' move) ?_
      rw [unseeing_move unseeing about, alike, ← unseeing_move unseeing' about]

end Machine

/-- What two machines have in common that differ only in which tokens are cancelled, and in what of
that handlers were shown. -/
structure Machine.SameButTokens (m m' : Machine) : Prop where
  dispatchers : m.world.dispatchers = m'.world.dispatchers
  guards : m.world.guards = m'.world.guards
  active : ∀ guard, m.world.isActive guard = m'.world.isActive guard
  alive : ∀ h, m.world.alive h = m'.world.alive h
  handlers : m.world.handlers.map (Handler.under .ofTokens) =
    m'.world.handlers.map (Handler.under .ofTokens)
  passes : m.world.passes.map (Pass.under .ofTokens) = m'.world.passes.map (Pass.under .ofTokens)
  control : m.control = m'.control
  /-- What would be answered to any action now, but for one about tokens. -/
  answers : ∀ action, action.isAboutToken = false →
    (m.world.perform action).2 = (m'.world.perform action).2
  events : ∀ summons, (m.world.summon none summons).map Prod.fst =
    (m'.world.summon none summons).map Prod.fst
  history : m.world.history.map (Event.under .ofTokens) =
    m'.world.history.map (Event.under .ofTokens)
  log : m.world.history.filterMap (Event.record? m.world.nameOf) =
    m'.world.history.filterMap (Event.record? m'.world.nameOf)
  tally : m.world.tally = m'.world.tally

theorem Answer.under_ofTokens (answer : Answer) : answer.under .ofTokens = answer := by
  cases answer <;> rfl

theorem log_ofTokens (nameOf : DispatcherId → String) (events : List Event) :
    (events.map (Event.under .ofTokens)).filterMap (Event.record? nameOf) =
      events.filterMap (Event.record? nameOf) := by
  rw [List.filterMap_map]
  congr 1
  funext event
  cases event <;> rfl

theorem Machine.sameButTokens {m m' : Machine}
    (alike : m.under .ofTokens = m'.under .ofTokens) : m.SameButTokens m' := by
  obtain ⟨w, control⟩ := m
  obtain ⟨w', control'⟩ := m'
  obtain ⟨worlds, controls⟩ := Machine.mk.inj alike
  refine ⟨congrArg (·.dispatchers) worlds, congrArg (·.guards) worlds, ?_, ?_,
    congrArg (·.handlers) worlds, congrArg (·.passes) worlds, ?_, ?_, ?_,
    congrArg (·.history) worlds, ?_, congrArg (·.tally) worlds⟩
  · intro guard
    rw [← w.isActive_under (v := .ofTokens), worlds, w'.isActive_under]
  · intro h
    rw [← w.alive_under (v := .ofTokens), worlds, w'.alive_under]
  · rwa [Control.under_eq Veil.ofTokens_showsEndings,
      Control.under_eq Veil.ofTokens_showsEndings] at controls
  · intro action other
    have performed : ∀ u : World, (u.perform action).2 = ((u.under .ofTokens).perform action).2 := by
      intro u
      rw [u.perform_under fun about => absurd about (by simp [other])]
      exact (Answer.under_ofTokens _).symm
    rw [performed w, performed w', worlds]
  · intro summons
    have started : ∀ u : World, ((u.under .ofTokens).summon none summons).map Prod.fst =
        (u.summon none summons).map Prod.fst := by
      intro u
      have summoned := u.summon_under (v := .ofTokens) none summons
      simp only [Option.map_none] at summoned
      rw [summoned]
      cases u.summon none summons <;> rfl
    exact (started w).symm.trans (worlds ▸ started w')
  · have told := congrArg (fun u : World => u.history.filterMap (Event.record? u.nameOf)) worlds
    exact (log_ofTokens w.nameOf w.history).symm.trans
      (told.trans (log_ofTokens w'.nameOf w'.history))

/-- Cancellation is only passed through. Two runs of handlers that do not look at tokens, in which
the same is done but for what is done to tokens, agree in all but the state of the tokens; and
whatever handlers there are, no tick depends on it in which none of them looks at a token. -/
theorem cancellation_passed_through :
    (∀ (arity : Arity) (blueprints blueprints' : List Blueprint) (moves moves' : List Move),
      (∀ blueprint ∈ blueprints ++ blueprints', ∀ script ∈ blueprint.scripts, ∀ step ∈ script,
        step.looks = false) →
      blueprints.map (Blueprint.under .ofTokens) = blueprints'.map (Blueprint.under .ofTokens) →
      moves.filter (!·.isAboutToken) = moves'.filter (!·.isAboutToken) →
        ((Machine.idle arity blueprints).run moves).SameButTokens
          ((Machine.idle arity blueprints').run moves')) ∧
    ∀ (m : Machine) (cancelled : List Token),
      (∀ step, m.next? = some step → step.isAboutToken = false) →
        m.tick.SameButTokens (Machine.tick ⟨{ m.world with cancelled }, m.control⟩) := by
  constructor
  · intro arity blueprints blueprints' moves moves' unseeing same_scripts same_moves
    have begins : ∀ bs : List Blueprint, bs ⊆ blueprints ++ blueprints' →
        (Machine.idle arity bs).world.Unseeing :=
      fun bs among => Machine.scripted_idle arity fun b member => unseeing b (among member)
    have first := begins blueprints (List.subset_append_left _ _)
    have second := begins blueprints' (List.subset_append_right _ _)
    have alike : (Machine.idle arity blueprints).under .ofTokens =
        (Machine.idle arity blueprints').under .ofTokens := by
      simp only [Machine.idle, Machine.under, World.under, same_scripts]
    apply Machine.sameButTokens
    rw [Machine.run_without first second alike moves, same_moves,
      ← Machine.run_without second second rfl moves']
  · intro m cancelled elsewhere
    apply Machine.sameButTokens
    exact (Machine.hide_tick elsewhere).trans
      (Machine.hide_tick (m := ⟨{ m.world with cancelled }, m.control⟩) elsewhere).symm

/-- A handler that cancels its token in the middle of its call, or does something else instead, and
one that has to wait for the only permit there is. -/
def cancellingBlueprints (step : Step) : List Blueprint :=
  [{ scripts := [[.say "x", .linger 1, step, .showToken]] }, { scripts := [[.fail (.failed "no")]] }]

/-- The pass of an event under way, with a token that somebody else may cancel. -/
def tokenMoves (about : List Move) : List Move :=
  [.act (.createToken (some "t")), .act (.createDispatcher (some "d") (.built [.maxConcurrent 1])),
    .act (.createHandler (some "a") 0 none), .act (.createHandler (some "b") 1 none),
    .act (.register (some "d") (some "a")), .act (.register (some "d") (some "b")),
    .start { dispatcher := some "d", token := some (.named "t") }, .poll 0] ++
    List.replicate 5 .tick ++ about ++ List.replicate 25 .tick

/-- A token that is cancelled twice while a call waits for its permit: the call is shown that, and
nothing else comes of it. -/
theorem cancellation_passed_through_queued :
    let m := (Machine.idle .simple (cancellingBlueprints .cancelToken)).run
      (tokenMoves [.act (.cancel (some "t"))])
    let m' := (Machine.idle .simple (cancellingBlueprints (.linger 0))).run (tokenMoves [])
    let failed := DispatchError.handlersFailed 2 [⟨"b", .failed "no"⟩]
    let fails := (Machine.idle .simple (cancellingBlueprints .cancelToken)).run
      ((tokenMoves [.act (.cancel (some "t"))]).take 27)
    m.SameButTokens m' ∧ m.control = .settled (some (.completed (some failed))) ∧
      .began 0 1 "b" 0 {} true ∈ m.world.history ∧ .began 0 1 "b" 0 {} false ∈ m'.world.history ∧
      fails.next? = some (.fail (.failed "no")) ∧ fails.world.cancelled = [.named "t"] ∧
      fails.tick.SameButTokens (Machine.tick ⟨{ fails.world with cancelled := [] }, fails.control⟩) := by
  intro m m' failed fails
  have next : fails.next? = some (.fail (.failed "no")) := by decide +kernel
  refine ⟨?_, by decide +kernel, by decide +kernel, by decide +kernel, next, by decide +kernel, ?_⟩
  · exact cancellation_passed_through.1 _ _ _ _ _ (by decide) (by decide) (by decide)
  · apply cancellation_passed_through.2
    rw [next]
    rintro step ⟨⟩
    rfl

end Fanout
