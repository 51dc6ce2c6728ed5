import Fanout.Proofs.Calm
import Fanout.Proofs.Exactness

/-! What the calls of a pass are given. A pass carries what was asked of its own event and the token
that was chosen for it, from the move that started it to the end of every run, and each of its calls
is given this, whenever it begins and whatever other passes carry. -/
namespace Fanout

/-- The token of the pass of an event, which may be that of the pass whose handler raises it. -/
def Summons.tokenFor (summons : Summons) (caller : Option Pass) (p : PassId) : Token :=
  match summons.token with
  | some (.named id) => .named id
  | some .callers => (caller.map Pass.token).getD (.own p)
  | _ => .own p

namespace World

theorem tokenCalled_eq_ok {w : World} {name : String} {token : Token}
    (h : w.tokenCalled (some name) = .ok token) : token = .named name := by
  obtain ⟨n, hn, h⟩ := bind_eq_ok h
  cases hn
  split at h <;> cases h
  rfl

/-- What a pass carries that is started by an event. -/
theorem summon_carries {w started : World} {caller : Option (CallId × Pass)} {summons : Summons}
    {p : PassId} (h : w.summon caller summons = .ok (p, started)) :
    p = w.passes.length ∧ started.arity = w.arity ∧ started.history = w.history ∧
      ∃ pass, started.passes = w.passes ++ [pass] ∧
        pass.occasion = w.arity.occasion summons.sender summons.args ∧
        pass.token = summons.tokenFor (caller.map Prod.snd) p ∧ pass.phase = .fresh := by
  unfold Summons.tokenFor
  obtain ⟨d, -, h⟩ := bind_eq_ok h
  dsimp only at h
  have opens : ∀ {token : Option Token} {result : PassId × World},
      w.start d token summons.sender summons.args (lineageOf caller) = result →
      result = (p, started) → p = w.passes.length ∧ started.arity = w.arity ∧
        started.history = w.history ∧ ∃ pass, started.passes = w.passes ++ [pass] ∧
          pass.occasion = w.arity.occasion summons.sender summons.args ∧
          pass.token = token.getD (.own p) ∧ pass.phase = .fresh := by
    rintro token result rfl same
    cases same
    exact ⟨rfl, rfl, rfl, _, rfl, rfl, rfl, rfl⟩
  split at h
  · rename_i chosen
    cases h
    rw [chosen]
    exact opens rfl rfl
  · rename_i chosen
    cases h
    rw [chosen]
    have same : (caller.map fun called => called.2.token) =
        (caller.map Prod.snd).map Pass.token := by cases caller <;> rfl
    rw [← same]
    exact opens rfl rfl
  · rename_i id chosen
    obtain ⟨token, called, h⟩ := bind_eq_ok h
    cases found : w.tokenCalled (some id) with
    | error refusal =>
      rw [found] at called
      cases called
    | ok named =>
      rw [found] at called
      obtain rfl := tokenCalled_eq_ok found
      cases called
      cases h
      rw [chosen]
      exact opens rfl rfl
  · cases h

end World

namespace Machine
open World

/-- The event that is raised in a move, and the call that raises it if it does not come from
outside. -/
def raised? (m : Machine) : Move → Option (Option (CallId × Pass) × Summons)
  | .start summons => some (none, summons)
  | .tick =>
      match m.control with
      | .polling frame _ =>
          match m.world.passes[frame.pass]?, m.next? with
          | some pass, some (.raise summons _) => some (some (frame.callId, pass), summons)
          | _, _ => none
      | _ => none
  | _ => none

/-- The pass is started by this move: the move raises the event, and this is its pass. -/
structure Invokes (m : Machine) (move : Move) (caller : Option (CallId × Pass)) (summons : Summons)
    (p : PassId) : Prop where
  raised : m.raised? move = some (caller, summons)
  started : (m.world.summon caller summons).map Prod.fst = .ok p

/-- What a move does to what passes carry: it is calm but for panics that come out of passes, or a
call begins, or an event is raised. -/
inductive Drift (m : Machine) (move : Move) : Prop
  | calm {mayBreak : PassId → Prop} (calm : m.world.Calm mayBreak (m.move move).world)
  | begins {p : PassId} {pass : Pass} {v : World} (i : Nat) (h : HandlerId) (number : Nat)
      (found : m.world.passes[p]? = some pass) (calm : m.world.Calm (fun _ => False) v)
      (world : (m.move move).world =
        v.record (.began p i h number pass.occasion (m.world.isCancelled pass.token)))
  | raises {caller : Option (CallId × Pass)} {summons : Summons} {p : PassId} {started : World}
      (raised : m.raised? move = some (caller, summons))
      (summoned : m.world.summon caller summons = .ok (p, started))
      (calm : started.Calm (fun _ => False) (m.move move).world)

theorem tick_drift (m : Machine) : m.Drift .tick := by
  cases m.tick_stir with
  | calm calm => exact .calm calm
  | @begins frame outer pass v h number control found calm tick =>
    exact .begins frame.call h number found calm (congrArg Machine.world tick)
  | @raises frame outer pass call number summons propagate rest q started control found at_position
      status summoned tick =>
    have next : m.next? = some (.raise summons propagate) := by
      simp only [next?, control, at_position, Option.bind_some, status, Status.next?]
    have raised : m.raised? .tick = some (some (frame.callId, pass), summons) := by
      simp only [raised?, control, found, next]
    refine .raises raised summoned ?_
    have world : (m.move .tick).world = _ := congrArg Machine.world tick
    rw [world]
    exact .setStatus started _ _ _
  | @refuses p outer pass payload control found fresh read tick =>
    have opened : m.world.Calm (· = p) (m.world.openPass p pass).1 :=
      .openPass m.world p pass fun _ _ => rfl
    have world : (m.move .tick).world = (m.world.openPass p pass).1 := congrArg Machine.world tick
    rw [← world] at opened
    exact .calm opened
  | @breaks payload frame outer pass call control found at_position unisolated tick =>
    have given_up : m.world.Calm (· = frame.pass) (m.world.abandon frame.pass (.panicked payload)) :=
      .abandon m.world frame.pass _ fun _ _ => rfl
    have world : (m.move .tick).world = m.world.abandon frame.pass (.panicked payload) :=
      congrArg Machine.world tick
    rw [← world] at given_up
    exact .calm given_up

/-- Outside of the poll that is under way, what is done is calm, but for the start of a pass. -/
theorem move_calm (m : Machine) {move : Move} (other : move ≠ .tick) :
    m.world.Calm (fun _ => False) (m.move move).world ∨
      ∃ summons p started, move = .start summons ∧ m.world.summon none summons = .ok (p, started) ∧
        (m.move move).world = started := by
  have still : m.world.Calm (fun _ => False) m.world := .refl _
  cases move with
  | tick => exact absurd rfl other
  | act action => exact .inl (.deed (Deed.perform m.world action))
  | start summons =>
    cases summoned : m.world.summon none summons with
    | ok started =>
      exact .inr ⟨summons, started.1, started.2, rfl, summoned, by simp only [move, summoned]⟩
    | error refusal =>
      have moved : m.move (.start summons) = m := by simp only [move, summoned]
      exact .inl (moved.symm ▸ still)
  | poll p =>
    unfold Machine.move
    dsimp only
    split
    · exact .inl (.setWaking m.world _)
    · exact .inl still
  | suspend =>
    have same : (m.move .suspend).world = m.world := by
      simp only [move]
      split <;> rfl
    exact .inl (same.symm ▸ still)
  | drop p =>
    unfold Machine.move
    dsimp only
    split
    · exact .inl (.drop m.world p)
    · exact .inl still
  | reorder d order => exact .inl (.deed (Deed.reorder m.world d order))

theorem move_drift (m : Machine) (move : Move) : m.Drift move := by
  by_cases ticks : move = .tick
  · exact ticks ▸ m.tick_drift
  · rcases m.move_calm ticks with calm | ⟨summons, p, started, rfl, summoned, world⟩
    · exact .calm calm
    · exact .raises rfl summoned (world ▸ .refl _)

namespace Drift
variable {m : Machine} {move : Move} (drift : m.Drift move)
include drift

theorem arity : (m.move move).world.arity = m.world.arity := by
  cases drift with
  | calm calm => exact calm.arity
  | begins i h number found calm world => rw [world]; exact calm.arity
  | raises raised summoned calm => exact calm.arity.trans (summon_carries summoned).2.1

/-- Every pass was there before and carries the same, or it was started by the move. -/
theorem pass {p : PassId} {pass' : Pass} (found : (m.move move).world.passes[p]? = some pass') :
    (∃ pass, m.world.passes[p]? = some pass ∧ pass'.occasion = pass.occasion ∧
      pass'.token = pass.token) ∨
    m.world.passes[p]? = none ∧ ∃ caller summons, m.Invokes move caller summons p ∧
      pass'.occasion = m.world.arity.occasion summons.sender summons.args ∧
      pass'.token = summons.tokenFor (caller.map Prod.snd) p := by
  cases drift with
  | calm calm =>
    obtain ⟨pass, before, same⟩ := calm.passes p pass' found
    exact .inl ⟨pass, before, same.occasion, same.token⟩
  | begins i h number there calm world =>
    rw [world] at found
    obtain ⟨pass, before, same⟩ := calm.passes p pass' found
    exact .inl ⟨pass, before, same.occasion, same.token⟩
  | @raises caller summons q started raised summoned calm =>
    obtain ⟨next, -, -, new, passes, occasion, token, -⟩ := summon_carries summoned
    obtain ⟨pass, before, same⟩ := calm.passes p pass' found
    rw [passes, List.getElem?_append] at before
    split at before
    · exact .inl ⟨pass, before, same.occasion, same.token⟩
    · rename_i old
      obtain ⟨last, here⟩ := List.getElem?_eq_some_iff.mp before
      have at_end : p = q := by
        have short : p - m.world.passes.length = 0 := Nat.lt_one_iff.mp last
        exact (Nat.le_antisymm (Nat.le_of_sub_eq_zero short) (Nat.le_of_not_lt old)).trans next.symm
      have same_pass : pass = new := (by simpa using here : new = pass).symm
      subst at_end same_pass
      refine .inr ⟨List.getElem?_eq_none (Nat.le_of_not_lt old), caller, summons,
        ⟨raised, by rw [summoned]; rfl⟩, same.occasion.trans occasion, same.token.trans token⟩

/-- A call that begins is given what its pass carries, and is shown the token of its pass. -/
theorem began {event : Event} (beginning : event.isBeginning = true)
    (told : event ∈ (m.move move).world.history) : event ∈ m.world.history ∨
      ∃ p i h number pass, m.world.passes[p]? = some pass ∧
        event = .began p i h number pass.occasion (m.world.isCancelled pass.token) := by
  have kept : ∀ {mayBreak : PassId → Prop} {w w' : World}, w.Calm mayBreak w' →
      event ∈ w'.history → event ∈ w.history := by
    intro mayBreak w w' calm told
    have listed := List.mem_filter.mpr ⟨told, beginning⟩
    rw [calm.begun] at listed
    exact (List.mem_filter.mp listed).1
  cases drift with
  | calm calm => exact .inl (kept calm told)
  | begins i h number found calm world =>
    rw [world] at told
    rcases List.mem_cons.mp told with new | before
    · exact .inr ⟨_, i, h, number, _, found, new⟩
    · exact .inl (kept calm before)
  | raises raised summoned calm => exact .inl ((summon_carries summoned).2.2.1 ▸ kept calm told)

end Drift

section
variable (arity : Arity) (blueprints : List Blueprint)

theorem run_concat (m : Machine) (moves : List Move) (move : Move) :
    m.run (moves ++ [move]) = (m.run moves).move move := run_append m moves [move]

theorem run_arity (moves : List Move) :
    ((idle arity blueprints).run moves).world.arity = arity := by
  induction moves using List.reverseRecOn with
  | nil => rfl
  | append_singleton moves move ih =>
    rw [run_concat]
    exact (move_drift _ move).arity.trans ih

/-- Every pass of a run was started by a move of it, and carries what was asked there. -/
theorem run_invoked {moves : List Move} {p : PassId} {pass : Pass}
    (found : ((idle arity blueprints).run moves).world.passes[p]? = some pass) :
    ∃ before move after caller summons, moves = before ++ move :: after ∧
      ((idle arity blueprints).run before).Invokes move caller summons p ∧
      pass.occasion = arity.occasion summons.sender summons.args ∧
      pass.token = summons.tokenFor (caller.map Prod.snd) p := by
  induction moves using List.reverseRecOn generalizing pass with
  | nil => simp [run, idle] at found
  | append_singleton moves move ih =>
    rw [run_concat] at found
    rcases (move_drift _ move).pass found with ⟨before, there, occasion, token⟩ |
      ⟨-, caller, summons, invokes, occasion, token⟩
    · obtain ⟨earlier, first, after, caller, summons, rfl, invokes, occasion', token'⟩ := ih there
      exact ⟨earlier, first, after ++ [move], caller, summons, by simp, invokes,
        occasion.trans occasion', token.trans token'⟩
    · rw [run_arity] at occasion
      exact ⟨moves, move, [], caller, summons, rfl, invokes, occasion, token⟩

/-- Every call that began in a run was given what its pass carries. -/
theorem run_began {moves : List Move} {p : PassId} {i : Nat} {h : HandlerId} {number : Nat}
    {carried : Occasion} {cancelled : Bool}
    (told : .began p i h number carried cancelled ∈
      ((idle arity blueprints).run moves).world.history) :
    ∃ pass, ((idle arity blueprints).run moves).world.passes[p]? = some pass ∧
      pass.occasion = carried := by
  induction moves using List.reverseRecOn with
  | nil => simp [run, idle] at told
  | append_singleton moves move ih =>
    have steady := (run_steady (steady_idle arity blueprints) moves).2
    have drift := move_drift ((idle arity blueprints).run moves) move
    rw [run_concat] at told ⊢
    obtain ⟨pass, there, occasion⟩ : ∃ pass,
        ((idle arity blueprints).run moves).world.passes[p]? = some pass ∧
          pass.occasion = carried := by
      rcases drift.began rfl told with before | ⟨q, j, h', n, pass, there, same⟩
      · exact ih before
      · cases same
        exact ⟨pass, there, rfl⟩
    obtain ⟨pass', found, -⟩ := Leads.keeps (move_steady steady move).1 there
    rcases drift.pass found with ⟨old, before, same, -⟩ | ⟨absent, -⟩
    · rw [there, Option.some.injEq] at before
      subst before
      exact ⟨pass', found, same.trans occasion⟩
    · rw [there] at absent
      cases absent

end

/-- Every call of the pass is given this occasion and this token. -/
structure Hands (m : Machine) (p : PassId) (occasion : Occasion) (token : Token) : Prop where
  carried : ∃ pass, m.world.passes[p]? = some pass ∧ pass.occasion = occasion ∧ pass.token = token
  began : ∀ i h number given cancelled,
    .began p i h number given cancelled ∈ m.world.history → given = occasion
  /-- A call that begins next is given the occasion, and is shown whether the token is cancelled. -/
  begins : ∀ move i h number given cancelled,
    .began p i h number given cancelled ∈ (m.move move).world.history →
    .began p i h number given cancelled ∉ m.world.history →
      given = occasion ∧ cancelled = m.world.isCancelled token
  /-- A call that has begun takes every step with this occasion and this token. -/
  takes : ∀ frame outer call number step later, m.control = .polling frame outer →
    frame.pass = p → m.world.call? p frame.call = some call →
    call.status = .running number .ready (step :: later) →
      ∃ pass, pass.occasion = occasion ∧ pass.token = token ∧ m.world.passes[p]? = some pass ∧
        m.tick = afterStep frame outer number later
          (m.world.take p frame.call pass call.handler step)
  /-- A call that waits until its token is cancelled waits for this one. -/
  waits : ∀ frame outer call number later, m.control = .polling frame outer →
    frame.pass = p → m.world.call? p frame.call = some call →
    call.status = .running number .cancellation later →
      m.tick = if m.world.isCancelled token then
          stay frame outer (m.world.setStatus p frame.call (.running number .ready later))
        else pause frame outer (m.world.await ⟨p, frame.call⟩ token .cancellation)

theorem run_hands (arity : Arity) (blueprints : List Blueprint) (moves : List Move) {p : PassId}
    {pass : Pass} (found : ((idle arity blueprints).run moves).world.passes[p]? = some pass) :
    ((idle arity blueprints).run moves).Hands p pass.occasion pass.token := by
  have began : ∀ i h number given cancelled, .began p i h number given cancelled ∈
      ((idle arity blueprints).run moves).world.history → given = pass.occasion := by
    intro i h number given cancelled told
    obtain ⟨other, found', occasion⟩ := run_began arity blueprints told
    rw [found, Option.some.injEq] at found'
    exact (found' ▸ occasion).symm
  refine ⟨⟨pass, found, rfl, rfl⟩, began, ?_, ?_, ?_⟩
  · intro move i h number given cancelled told new
    rcases (move_drift _ move).began rfl told with before | ⟨q, j, h', n, other, found', same⟩
    · exact absurd before new
    · cases same
      rw [found, Option.some.injEq] at found'
      exact found' ▸ ⟨rfl, rfl⟩
  · rintro frame outer call number step later control rfl at_position status
    refine ⟨pass, rfl, rfl, found, ?_⟩
    rw [← poll_step found at_position status, tick, control]
  · rintro frame outer call number later control rfl at_position status
    rw [tick, control]
    simp only [poll, found, at_position, visit, status, visitRunning, isMet]
    rfl

end Machine
end Fanout
