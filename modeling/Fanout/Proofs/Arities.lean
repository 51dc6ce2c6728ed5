import Fanout.Proofs.Carriage

/-! One engine for the three arities. What events carry is handed to the handlers and used for
nothing else: hidden behind a veil, two runs of any two arities in which the same is done are one
and the same, if no handler looks at what it is given. -/
namespace Fanout

def Veil.ofOccasions : Veil where
  arity _ := .simple
  occasion _ := {}
  history := List.map (Event.shown (fun _ => {}) id id)
  verdict_returned := Veil.verdict_kept
  contains_cancelled := Veil.cancelled_kept
  history_cons _ _ _ := rfl

theorem Veil.ofOccasions_showsEndings : Veil.ofOccasions.ShowsEndings := ⟨rfl, rfl, fun _ _ => rfl⟩

theorem Veil.ofOccasions_showsTokens : Veil.ofOccasions.ShowsTokens := rfl

theorem Step.seen_ofOccasions {step : Step} (unlooking : step.isAboutOccasion = false) :
    step.Seen .ofOccasions where
  same := rfl
  tokens _ := Veil.ofOccasions_showsTokens
  occasions about := absurd about (by simp [unlooking])
  panics _ _ := rfl

theorem script_under_ofOccasions (script : Script) :
    script.map (Step.under .ofOccasions) = script := List.map_id script

theorem Handler.under_ofOccasions (handler : Handler) : handler.under .ofOccasions = handler := by
  have scripts : handler.scripts.map (List.map (Step.under .ofOccasions)) = handler.scripts := by
    rw [funext script_under_ofOccasions, List.map_id']
  unfold Handler.under
  rw [scripts]

theorem Answer.under_ofOccasions (answer : Answer) : answer.under .ofOccasions = answer := by
  cases answer <;> rfl

abbrev World.Unlooking (w : World) : Prop := w.Scripted fun step => step.isAboutOccasion = false

namespace Machine

/-- A tick does the same whatever events carry. -/
theorem veil_tick {m : Machine} (unlooking : m.world.Unlooking) :
    m.tick.under .ofOccasions = (m.under .ofOccasions).tick := by
  apply under_tick Veil.ofOccasions_showsEndings
  intro frame outer pass call number await rest _ _ at_position status
  have permitted := unlooking.call at_position
  rw [status] at permitted
  refine ⟨?_, fun _ => Veil.ofOccasions_showsTokens⟩
  rintro step later rfl rfl
  exact m.world.take_under frame.pass frame.call pass call.handler
    (Step.seen_ofOccasions (permitted.2 step List.mem_cons_self))

theorem veil_move {m : Machine} (unlooking : m.world.Unlooking) (move : Move) :
    (m.move move).under .ofOccasions = (m.under .ofOccasions).move move := by
  by_cases ticks : move = .tick
  · exact ticks ▸ veil_tick unlooking
  · exact under_move m ticks fun _ _ _ => Veil.ofOccasions_showsTokens

theorem veil_run {m : Machine} (unlooking : m.world.Unlooking) (moves : List Move) :
    (m.run moves).under .ofOccasions = (m.under .ofOccasions).run moves := by
  induction moves generalizing m with
  | nil => rfl
  | cons move moves ih =>
    refine (ih (move_scripted unlooking move)).trans ?_
    rw [veil_move unlooking]
    rfl

end Machine

/-- What two machines have in common that differ only in what their events carry. -/
structure Machine.SameButOccasions (m m' : Machine) : Prop where
  /-- What the poll is at, and how the outermost pass ended. -/
  control : m.control = m'.control
  dispatchers : m.world.dispatchers = m'.world.dispatchers
  guards : m.world.guards = m'.world.guards
  active : ∀ guard, m.world.isActive guard = m'.world.isActive guard
  handlers : m.world.handlers = m'.world.handlers
  cancelled : m.world.cancelled = m'.world.cancelled
  passes : m.world.passes.map (Pass.under .ofOccasions) =
    m'.world.passes.map (Pass.under .ofOccasions)
  /-- What would be answered to any action now. -/
  answers : ∀ action, (m.world.perform action).2 = (m'.world.perform action).2
  events : ∀ summons, (m.world.summon none summons).map Prod.fst =
    (m'.world.summon none summons).map Prod.fst
  history : m.world.history.map (Event.under .ofOccasions) =
    m'.world.history.map (Event.under .ofOccasions)
  log : m.world.history.filterMap (Event.record? m.world.nameOf) =
    m'.world.history.filterMap (Event.record? m'.world.nameOf)
  tally : m.world.tally = m'.world.tally

theorem log_ofOccasions (nameOf : DispatcherId → String) (events : List Event) :
    (events.map (Event.under .ofOccasions)).filterMap (Event.record? nameOf) =
      events.filterMap (Event.record? nameOf) := by
  rw [List.filterMap_map]
  congr 1
  funext event
  cases event <;> rfl

theorem Machine.sameButOccasions {m m' : Machine}
    (alike : m.under .ofOccasions = m'.under .ofOccasions) : m.SameButOccasions m' := by
  obtain ⟨w, control⟩ := m
  obtain ⟨w', control'⟩ := m'
  obtain ⟨worlds, controls⟩ := Machine.mk.inj alike
  have shown : ∀ u : World, (u.under .ofOccasions).handlers = u.handlers := by
    intro u
    simp only [World.under, Roster.map, funext Handler.under_ofOccasions, Prod.mk.eta, List.map_id']
  refine ⟨?_, congrArg (·.dispatchers) worlds, congrArg (·.guards) worlds, ?_, ?_,
    congrArg (·.cancelled) worlds, congrArg (·.passes) worlds, ?_, ?_,
    congrArg (·.history) worlds, ?_, congrArg (·.tally) worlds⟩
  · rwa [Control.under_eq Veil.ofOccasions_showsEndings,
      Control.under_eq Veil.ofOccasions_showsEndings] at controls
  · intro guard
    rw [← w.isActive_under (v := .ofOccasions), worlds, w'.isActive_under]
  · rw [← shown w, worlds, shown w']
  · intro action
    have performed : ∀ u : World,
        (u.perform action).2 = ((u.under .ofOccasions).perform action).2 := by
      intro u
      rw [u.perform_under fun _ => Veil.ofOccasions_showsTokens]
      exact (Answer.under_ofOccasions _).symm
    rw [performed w, performed w', worlds]
  · intro summons
    have started : ∀ u : World, ((u.under .ofOccasions).summon none summons).map Prod.fst =
        (u.summon none summons).map Prod.fst := by
      intro u
      have summoned := u.summon_under (v := .ofOccasions) none summons
      simp only [Option.map_none] at summoned
      rw [summoned]
      cases u.summon none summons <;> rfl
    exact (started w).symm.trans (worlds ▸ started w')
  · have told := congrArg (fun u : World => u.history.filterMap (Event.record? u.nameOf)) worlds
    exact (log_ofOccasions w.nameOf w.history).symm.trans
      (told.trans (log_ofOccasions w'.nameOf w'.history))

/-- One engine for three arities. Every pass of every run was started by one of its moves, and all
its calls, however they are made and whenever they begin, are given what that event carries in the
arity of the world, and the token that was chosen for it. And if no handler looks at what it is
given, the same moves come to the same in all arities, but for what is given. -/
theorem one_engine_three_arities :
    (∀ (arity : Arity) (blueprints : List Blueprint) (moves : List Move) (p : PassId) (pass : Pass),
      ((Machine.idle arity blueprints).run moves).world.passes[p]? = some pass →
        ∃ before move after caller summons, moves = before ++ move :: after ∧
          ((Machine.idle arity blueprints).run before).Invokes move caller summons p ∧
          ((Machine.idle arity blueprints).run moves).Hands p
            (arity.occasion summons.sender summons.args)
            (summons.tokenFor (caller.map Prod.snd) p)) ∧
    ∀ (arity arity' : Arity) (blueprints : List Blueprint) (moves : List Move),
      (∀ blueprint ∈ blueprints, ∀ script ∈ blueprint.scripts, ∀ step ∈ script,
        step.isAboutOccasion = false) →
      ((Machine.idle arity blueprints).run moves).SameButOccasions
        ((Machine.idle arity' blueprints).run moves) := by
  constructor
  · intro arity blueprints moves p pass found
    obtain ⟨before, move, after, caller, summons, split, invokes, occasion, token⟩ :=
      Machine.run_invoked arity blueprints found
    have hands := Machine.run_hands arity blueprints moves found
    rw [occasion, token] at hands
    exact ⟨before, move, after, caller, summons, split, invokes, hands⟩
  · intro arity arity' blueprints moves unlooking
    have idle : ∀ a, (Machine.idle a blueprints).world.Unlooking :=
      fun a => Machine.scripted_idle a unlooking
    apply Machine.sameButOccasions
    rw [Machine.veil_run (idle arity), Machine.veil_run (idle arity')]
    rfl

/-- A handler that lets others go first, and one that has to wait for its permit. -/
def lateBlueprints : List Blueprint :=
  [{ make := .custom none none, scripts := [[.linger 1]] }, { scripts := [[.say "x"]] }]

/-- Two events with different numbers are under way on one dispatcher, whose passes do one call at a
time; the second pass is polled to its end before the first one is polled again. -/
def lateMoves : List Move := List.flatten
  [[.act (.createDispatcher (some "d") (.built [.maxConcurrent 1])),
      .act (.createHandler (some "a") 0 none), .act (.createHandler (some "b") 1 none),
      .act (.register (some "d") (some "a")), .act (.register (some "d") (some "b")),
      .start { dispatcher := some "d", args := 7, sender := "s" },
      .start { dispatcher := some "d", args := 8, sender := "t" }, .poll 0],
    List.replicate 7 .tick, [.suspend, .poll 1], List.replicate 40 .tick, [.poll 0],
    List.replicate 40 .tick]

/-- The first pass begins its second call long after another event was raised and its pass closed,
and still hands it what its own event carried; without sender and number all goes the same way. -/
theorem one_engine_three_arities_late :
    .began 0 1 "b" 1 { sender := some "s", args := some 7 } false ∈
        ((Machine.idle .sender lateBlueprints).run lateMoves).world.history ∧
      .began 1 1 "b" 0 { sender := some "t", args := some 8 } false ∈
        ((Machine.idle .sender lateBlueprints).run lateMoves).world.history ∧
      .began 0 1 "b" 1 {} false ∈
        ((Machine.idle .simple lateBlueprints).run lateMoves).world.history ∧
      (∃ before move after caller summons, lateMoves = before ++ move :: after ∧
        ((Machine.idle .sender lateBlueprints).run before).Invokes move caller summons 0 ∧
        ((Machine.idle .sender lateBlueprints).run lateMoves).Hands 0
          (Arity.sender.occasion summons.sender summons.args)
          (summons.tokenFor (caller.map Prod.snd) 0)) ∧
      ((Machine.idle .sender lateBlueprints).run lateMoves).SameButOccasions
        ((Machine.idle .simple lateBlueprints).run lateMoves) := by
  refine ⟨by decide +kernel, by decide +kernel, by decide +kernel, ?_, ?_⟩
  · have there : (((Machine.idle .sender lateBlueprints).run lateMoves).world.passes[0]?).isSome =
        true := by decide +kernel
    obtain ⟨pass, found⟩ := Option.isSome_iff_exists.mp there
    exact one_engine_three_arities.1 .sender lateBlueprints lateMoves 0 pass found
  · exact one_engine_three_arities.2 _ _ _ _ (by decide +kernel)

end Fanout
