import Fanout.Log
import Fanout.Proofs.Taming

/-! Two runs in lockstep. Where all dispatchers isolate panics, a small step takes machines that are
the same when they are tamed to machines that are the same when they are tamed; so a run in which
handlers panic, and one in which they return the errors of their panics, never come apart. -/
namespace Fanout

namespace World
variable (w : World)

def Isolating : Prop := ∀ dispatcher ∈ w.dispatchers, dispatcher.settings.isolatePanics = true

/-- A dispatcher that was never made isolates panics, too. -/
theorem isolating_iff : w.Isolating ↔ ∀ d, (w.settings d).isolatePanics = true := by
  constructor
  · intro isolating d
    unfold World.settings dispatcher
    cases found : w.dispatchers[d]? with
    | none => rfl
    | some there => exact isolating there (List.mem_of_getElem? found)
  · intro isolating there member
    obtain ⟨d, found⟩ := List.mem_iff_getElem?.mp member
    have isolates := isolating d
    simpa [World.settings, dispatcher, found] using isolates

end World

/-- A panic that a call ends by is its error instead; one that no call is left to end in comes
out. -/
def Control.tame : Control → Control
  | ending verdict (frame :: outer) => ending verdict.tame (frame :: outer)
  | control => control

def Machine.tame (m : Machine) : Machine := ⟨m.world.tame, m.control.tame⟩

namespace Machine
variable (w : World) (p : PassId) (frame : Frame) (outer : List Frame)

theorem tame_eq (m : Machine) : m.tame = m.under .taming := rfl

theorem tame_poll : (poll w frame outer).tame = poll w.tame frame outer :=
  under_poll w frame outer fun pass call _ _ _ _ _ _ =>
    ⟨fun step _ _ _ => w.take_tame frame.pass frame.call pass call.handler step,
      fun _ => Veil.taming_showsTokens⟩

/-- The call of the innermost frame is over, and is not counted among those that returned. -/
def endCall (w : World) (error : Option CallError) (frame : Frame) (outer : List Frame) : Machine :=
  match w.passes[frame.pass]?, w.call? frame.pass frame.call with
  | some _, some call =>
      beginTurn frame.pass outer (w.endCall frame.pass frame.call call.handler error)
  | _, _ => stuck w

/-- Whether a call panics or returns the error of its panic, its pass goes on in the same way. -/
theorem tame_conclude {w : World} (isolating : w.Isolating) (verdict : Verdict) (frame : Frame)
    (outer : List Frame) : (conclude w verdict (frame :: outer)).tame =
      endCall w.tame verdict.error frame outer := by
  simp only [conclude, endCall, w.tame_eq, w.getElem?_passes_under, World.call?_under]
  cases w.passes[frame.pass]? with
  | none => rfl
  | some pass =>
    cases w.call? frame.pass frame.call with
    | none => rfl
    | some call =>
      cases verdict with
      | returned error =>
        dsimp only
        rw [tame_eq, under_beginTurn, ← World.tame_eq, World.tame_returnCall]
        rfl
      | panicked payload =>
        dsimp only
        rw [if_pos (w.isolating_iff.mp isolating pass.dispatcher), tame_eq, under_beginTurn,
          ← World.tame_eq, World.tame_catchPanic]
        rfl

def tameTick (m : Machine) : Machine :=
  match m.control with
  | .entering p outer => ⟨(enter m.world p outer).world, (enter m.world p outer).control.tame⟩
  | .ending verdict (frame :: outer) => endCall m.world verdict.error frame outer
  | _ => m.tick

theorem tame_tick {m : Machine} (isolating : m.world.Isolating) :
    m.tick.tame = m.tame.tameTick := by
  obtain ⟨w, control⟩ := m
  cases control with
  | entering p outer => exact enter_under (v := .taming) w p outer
  | choosing turn outer => exact under_choose (v := .taming) w outer turn
  | polling frame outer => exact tame_poll w frame outer
  | leaving p outer => exact under_leave (v := .taming) w p outer
  | ending verdict frames =>
    cases frames with
    | nil => cases verdict <;> rfl
    | cons frame outer => exact tame_conclude isolating verdict frame outer
  | settled ending => rfl

/-- Whatever the parties do but for the steps of a poll. -/
theorem tame_move (m : Machine) {move : Move} (other : move ≠ .tick) :
    (m.move move).tame = m.tame.move move :=
  under_move m other fun _ _ _ => Veil.taming_showsTokens

/-- Settings are never changed, so that panics were isolated all along. -/
theorem isolating_of_leads {w w' : World} (leads : w.Leads w') (isolating : w'.Isolating) :
    w.Isolating := by
  rw [World.isolating_iff] at *
  intro d
  by_cases there : d < w.dispatchers.length
  · exact leads.settings there ▸ isolating d
  · have missing : w.dispatchers[d]? = none := List.getElem?_eq_none (not_lt.mp there)
    simp [World.settings, World.dispatcher, missing]

/-- Two machines that differ in nothing but what is tamed go on differing in nothing else. -/
theorem run_alike {m m' : Machine} (steady : m.Steady) (alike : m.tame = m'.tame)
    (moves : List Move) (isolating : (m.run moves).world.Isolating) :
    (m.run moves).tame = (m'.run moves).tame := by
  induction moves generalizing m m' with
  | nil => exact alike
  | cons move moves ih =>
    obtain ⟨leads, next⟩ := move_steady steady move
    apply ih next _ isolating
    by_cases other : move = .tick
    · subst other
      have now : m.world.Isolating :=
        isolating_of_leads (leads.trans (run_steady next moves).1) isolating
      have now' : m'.world.Isolating := by
        have dispatchers := congrArg (fun m : Machine => m.world.dispatchers) alike
        exact fun there member => now there (dispatchers ▸ member)
      calc m.tick.tame = m.tame.tameTick := tame_tick now
        _ = m'.tame.tameTick := by rw [alike]
        _ = m'.tick.tame := (tame_tick now').symm
    · rw [tame_move m other, tame_move m' other, alike]

end Machine

/-- The first step, or the return of the error of its panic. -/
inductive Step.Returning : Step → Step → Prop
  | same (step : Step) : Returning step step
  | returning (payload : Payload) : Returning (.panic payload) (.fail (.panicked payload.info))

/-- The handlers made after the second blueprint return in some places the error of a panic, where
those made after the first panic. -/
structure Blueprint.Returning (blueprint blueprint' : Blueprint) : Prop where
  make : blueprint.make = blueprint'.make
  scripts : List.Forall₂ (List.Forall₂ Step.Returning) blueprint.scripts blueprint'.scripts
  quiet : blueprint.quiet = blueprint'.quiet

theorem Step.Returning.tame {step step' : Step} (returning : Step.Returning step step') :
    step.tame = step'.tame := by
  cases returning <;> rfl

theorem map_congr_of_forall₂ {α β : Type} {R : α → α → Prop} {f : α → β} {l l' : List α}
    (related : List.Forall₂ R l l') (same : ∀ x y, R x y → f x = f y) : l.map f = l'.map f := by
  rw [← List.forall₂_eq_eq_eq, List.forall₂_map_left_iff, List.forall₂_map_right_iff]
  exact related.imp same

theorem Blueprint.Returning.tame {blueprint blueprint' : Blueprint}
    (returning : Blueprint.Returning blueprint blueprint') : blueprint.tame = blueprint'.tame := by
  obtain ⟨make, scripts, quiet⟩ := returning
  have tamed := map_congr_of_forall₂ scripts fun _ _ script =>
    map_congr_of_forall₂ script fun _ _ => Step.Returning.tame
  simp only [Blueprint.tame, make, tamed, quiet]

/-- What the log tells of events but for the panics that were caught. -/
def calmLog (nameOf : DispatcherId → String) (events : List Event) : List Record :=
  (events.filterMap (Event.record? nameOf)).filter (·.message ≠ "handler panicked")

/-- To tell a panic as the return of its error takes nothing but its record from the log. -/
theorem calmLog_retell (nameOf : DispatcherId → String) (events : List Event) :
    calmLog nameOf (retell events) = calmLog nameOf events := by
  fun_induction retell events with
  | case1 p' i' d name info p i h earlier ih =>
    simpa [calmLog, Event.record?, List.filterMap_cons] using ih
  | case2 event earlier other ih =>
    have same : event.tame.record? nameOf = event.record? nameOf := by cases event <;> rfl
    unfold calmLog at ih ⊢
    rw [List.filterMap_cons, List.filterMap_cons, same]
    cases event.record? nameOf with
    | none => exact ih
    | some record => rw [List.filter_cons, List.filter_cons, ih]
  | case3 => rfl

/-- What two machines have in common that differ only in how the panics of calls are told: a call
that was cut by a panic, which was caught, may have returned the error of the panic instead. -/
structure Machine.Agrees (m m' : Machine) : Prop where
  dispatchers : m.world.dispatchers = m'.world.dispatchers
  guards : m.world.guards = m'.world.guards
  active : ∀ guard, m.world.isActive guard = m'.world.isActive guard
  alive : ∀ h, m.world.alive h = m'.world.alive h
  /-- Every handler but for the panics that are left in its scripts. -/
  handlers : m.world.handlers.map Handler.tame = m'.world.handlers.map Handler.tame
  /-- Every pass with its phase, its permits and its calls, but for the panics that are left in what
  the calls still have to do. -/
  passes : m.world.passes.map Pass.tame = m'.world.passes.map Pass.tame
  settled : ∀ ending, m.control = .settled ending ↔ m'.control = .settled ending
  /-- What would be answered to any action now, but for the number of calls that returned. -/
  answers : ∀ action, (m.world.perform action).2.tame = (m'.world.perform action).2.tame
  events : ∀ summons, (m.world.summon none summons).map Prod.fst =
    (m'.world.summon none summons).map Prod.fst
  history : retell m.world.history = retell m'.world.history
  log : calmLog m.world.nameOf m.world.history = calmLog m'.world.nameOf m'.world.history
  tally : m.world.tally.tame = m'.world.tally.tame

theorem Control.tame_eq_settled {control : Control} {ending : Option Ending} :
    control.tame = .settled ending ↔ control = .settled ending := by
  cases control with
  | ending verdict frames => cases frames <;> simp [tame]
  | _ => rfl

theorem Machine.agrees_of_alike {m m' : Machine} (alike : m.tame = m'.tame) : m.Agrees m' := by
  obtain ⟨w, control⟩ := m
  obtain ⟨w', control'⟩ := m'
  obtain ⟨worlds, controls⟩ := Machine.mk.inj alike
  refine ⟨congrArg (·.dispatchers) worlds, congrArg (·.guards) worlds, ?_, ?_,
    congrArg (·.handlers) worlds, congrArg (·.passes) worlds, ?_, ?_, ?_,
    congrArg (·.history) worlds, ?_, congrArg (·.tally) worlds⟩
  · intro guard
    have active : ∀ v : World, v.tame.isActive guard = v.isActive guard :=
      fun v => v.isActive_under (v := .taming) guard
    rw [← active w, ← active w', worlds]
  · intro h
    have alive : ∀ v : World, v.tame.alive h = v.alive h := fun v => v.alive_under (v := .taming) h
    rw [← alive w, ← alive w', worlds]
  · intro ending
    rw [← Control.tame_eq_settled, controls, Control.tame_eq_settled]
  · intro action
    have performed : ∀ v : World, (v.perform action).2.tame = (v.tame.perform action).2 := by
      intro v
      rw [v.tame_eq, v.perform_under fun _ => Veil.taming_showsTokens]
      show _ = (v.perform action).2.under .taming
      cases (v.perform action).2 <;> rfl
    rw [performed w, performed w', worlds]
  · intro summons
    have started : ∀ v : World, (v.tame.summon none summons).map Prod.fst =
        (v.summon none summons).map Prod.fst := by
      intro v
      have summoned := v.summon_under (v := .taming) none summons
      simp only [Option.map_none] at summoned
      rw [v.tame_eq, summoned]
      cases v.summon none summons <;> rfl
    exact (started w).symm.trans (worlds ▸ started w')
  · have told : calmLog w.tame.nameOf w.tame.history = calmLog w'.tame.nameOf w'.tame.history := by
      rw [worlds]
    rwa [World.tame, World.tame, calmLog_retell, calmLog_retell] at told

theorem isolated_panic_is_error {arity : Arity} {blueprints blueprints' : List Blueprint}
    (returning : List.Forall₂ Blueprint.Returning blueprints blueprints') (moves : List Move)
    (isolating : ((Machine.idle arity blueprints).run moves).world.Isolating) :
    ((Machine.idle arity blueprints).run moves).Agrees
      ((Machine.idle arity blueprints').run moves) := by
  apply Machine.agrees_of_alike
  apply Machine.run_alike (Machine.steady_idle arity blueprints) _ moves isolating
  have tamed := map_congr_of_forall₂ returning fun _ _ => Blueprint.Returning.tame
  simp only [Machine.tame, Machine.idle, World.tame, tamed]

/-- One handler says something, waits for its turn and panics, while the other one waits for the
only permit there is. -/
def panickingMoves : List Move :=
  [.act (.createDispatcher (some "d") (.built [.maxConcurrent 1])),
    .act (.createHandler (some "a") 0 none), .act (.createHandler (some "b") 1 none),
    .act (.subscribe (some "s") (some "d") (some "a")), .act (.register (some "d") (some "b")),
    .start { dispatcher := some "d" }, .poll 0] ++ List.replicate 30 .tick

/-- A handler that lets the others go first before it does the last step, and one that has a word to
say. -/
def blueprintsWith (last : Step) : List Blueprint :=
  [{ scripts := [[.say "x", .linger 1, last]] }, { scripts := [[.say "y"]] }]

/-- A call that panics while another one waits for its permit, or returns the error instead. -/
theorem isolated_panic_is_error_queued :
    let info := "non-string panic payload"
    let m := (Machine.idle .simple (blueprintsWith (.panic .other))).run panickingMoves
    let m' := (Machine.idle .simple (blueprintsWith (.fail (.panicked info)))).run panickingMoves
    m.Agrees m' ∧ .caught 0 0 0 "a" info ∈ m.world.history ∧
      .returned 0 0 "a" (some (.panicked info)) ∈ m'.world.history ∧
      m.control = .settled (some (.completed (some (.handlersFailed 2 [⟨"a", .panicked info⟩])))) := by
  intro info m m'
  refine ⟨isolated_panic_is_error ?_ panickingMoves ?_, ?_, ?_, ?_⟩
  · have scripts : List.Forall₂ Step.Returning [.say "x", .linger 1, .panic .other]
        [.say "x", .linger 1, .fail (.panicked info)] :=
      .cons (.same _) (.cons (.same _) (.cons (.returning .other) .nil))
    have others : List.Forall₂ Step.Returning [.say "y"] [.say "y"] := .cons (.same _) .nil
    exact .cons ⟨rfl, .cons scripts .nil, rfl⟩ (.cons ⟨rfl, .cons others .nil, rfl⟩ .nil)
  · unfold World.Isolating
    decide +kernel
  · decide +kernel
  · decide +kernel
  · decide +kernel

end Fanout
