import Fanout.Proofs.Openings

/-! Who will be polled. A call that could go on, and a pass for which another call waits, are polled
again before the poll of the outermost pass comes to rest: because that is under way, because they
are due in a turn that is under way, or because the pass that they belong to will be polled in its
turn, and so on outwards up to the outermost pass, which asks for it. What is promised in this way
is carried from one step to the next. -/
namespace Fanout

/-- The call is not held up by anything. -/
def Status.isEager : Status → Bool
  | idle => true
  | granted => true
  | _ => false

theorem Status.isUnfinished_of_isEager {status : Status} (h : status.isEager = true) :
    status.isUnfinished = true := by
  cases status <;> simp_all [isEager, isUnfinished]

/-- What a poll is at. -/
structure Focus where
  outermost : Option PassId := none
  enters : Option PassId := none
  polls : Option CallId := none
  turning : List PassId := []

/-- The passes of a world, who is to be polled in it, and what its poll is at. -/
structure Scene where
  passes : List Pass
  waking : Waking
  focus : Focus

/-- The pass is under way, and these calls wait for it. -/
def Runs (passes : List Pass) (p : PassId) (callers : List CallId) : Prop :=
  ∃ pass, passes[p]? = some pass ∧ pass.phase = .running ∧ pass.lineage = callers

def Crowded (passes : List Pass) (p : PassId) : Prop :=
  ∃ pass, passes[p]? = some pass ∧ pass.isCrowded = true

/-- The call is one of a pass under way, and could go on. -/
def Eager (passes : List Pass) (call : CallId) (callers : List CallId) : Prop :=
  ∃ pass c, passes[call.pass]? = some pass ∧ pass.phase = .running ∧ pass.lineage = callers ∧
    pass.calls[call.position]? = some c ∧ c.status.isEager = true

/-- The first of the calls that wait for a pass under way runs, and waits for this pass. -/
def Attended (passes : List Pass) : Prop :=
  ∀ (q : PassId) (call : CallId) (callers : List CallId), Runs passes q (call :: callers) →
    ∃ outer, passes[call.pass]? = some outer ∧ outer.phase = .running ∧
      outer.lineage = callers ∧ outer.Awaits call.position q

theorem Runs.unique {passes : List Pass} {p : PassId} {callers others : List CallId}
    (h : Runs passes p callers) (h' : Runs passes p others) : callers = others := by
  obtain ⟨pass, found, -, rfl⟩ := h
  obtain ⟨pass', found', -, rfl⟩ := h'
  rw [found, Option.some.injEq] at found'
  rw [found']

theorem Eager.runs {passes : List Pass} {call : CallId} {callers : List CallId}
    (h : Eager passes call callers) : Runs passes call.pass callers := by
  obtain ⟨pass, c, found, running, lineage, -⟩ := h
  exact ⟨pass, found, running, lineage⟩

theorem Attended.runs {passes : List Pass} (attended : Attended passes) {q : PassId}
    {call : CallId} {callers : List CallId} (h : Runs passes q (call :: callers)) :
    Runs passes call.pass callers := by
  obtain ⟨outer, found, running, lineage, -⟩ := attended q call callers h
  exact ⟨outer, found, running, lineage⟩

/-- Somebody relies on the call being polled: the call itself, or an inner pass. -/
inductive Wants (passes : List Pass) : Option PassId → CallId → List CallId → Prop
  | call {call : CallId} {callers : List CallId} (eager : Eager passes call callers) :
      Wants passes none call callers
  | pass {q : PassId} {call : CallId} {callers : List CallId}
      (runs : Runs passes q (call :: callers)) : Wants passes (some q) call callers

theorem Wants.runs {passes : List Pass} {inner : Option PassId} {call : CallId}
    {callers : List CallId} (h : Wants passes inner call callers) (attended : Attended passes) :
    Runs passes call.pass callers := by
  cases h with
  | call eager => exact eager.runs
  | pass runs => exact attended.runs runs

/-- A call that somebody relies on is not over. -/
theorem Wants.status {passes : List Pass} {inner : Option PassId} {call : CallId}
    {callers : List CallId} (h : Wants passes inner call callers) (attended : Attended passes)
    {pass : Pass} (found : passes[call.pass]? = some pass) :
    ∃ c, pass.calls[call.position]? = some c ∧ c.status.isUnfinished = true ∧
      (c.status.isEager = true ∨ ∃ q, inner = some q ∧ pass.Awaits call.position q) := by
  cases h with
  | call eager =>
    obtain ⟨pass', c, found', -, -, at_position, eager⟩ := eager
    rw [found, Option.some.injEq] at found'
    subst found'
    exact ⟨c, at_position, Status.isUnfinished_of_isEager eager, .inl eager⟩
  | @pass q _ _ runs =>
    obtain ⟨pass', found', -, -, waits⟩ := attended q call callers runs
    rw [found, Option.some.injEq] at found'
    subst found'
    obtain ⟨c, number, propagate, rest, at_position, status⟩ := id waits
    exact ⟨c, at_position, by rw [status]; rfl, .inr ⟨q, rfl, waits⟩⟩

/-- Nobody runs, could go on or is crowded who was not before. -/
structure Calms (passes passes' : List Pass) : Prop where
  runs : ∀ q callers, Runs passes' q callers → Runs passes q callers
  eager : ∀ call callers, Eager passes' call callers → Eager passes call callers
  crowded : ∀ q, Crowded passes' q → Crowded passes q

namespace Calms
variable {passes passes' passes'' : List Pass}

theorem refl (passes : List Pass) : Calms passes passes :=
  ⟨fun _ _ => id, fun _ _ => id, fun _ => id⟩

theorem trans (h : Calms passes passes') (h' : Calms passes' passes'') : Calms passes passes'' where
  runs q callers runs := h.runs q callers (h'.runs q callers runs)
  eager call callers eager := h.eager call callers (h'.eager call callers eager)
  crowded q crowded := h.crowded q (h'.crowded q crowded)

section
variable {p : PassId} {old new : Pass} (found : passes[p]? = some old)
  (lineage : new.lineage = old.lineage) (running : new.phase = .running → old.phase = .running)
include found

include lineage running in
theorem runs_set {q : PassId} {callers : List CallId} (h : Runs (passes.set p new) q callers) :
    Runs passes q callers := by
  obtain ⟨pass, found_pass, pass_running, pass_lineage⟩ := h
  by_cases same : p = q
  · subst same
    rw [World.getElem?_set_of_some _ found, Option.some.injEq] at found_pass
    subst found_pass
    exact ⟨old, found, running pass_running, lineage.symm.trans pass_lineage⟩
  · exact ⟨pass, (List.getElem?_set_ne same).symm.trans found_pass, pass_running, pass_lineage⟩

theorem crowded_set (length : new.calls.length = old.calls.length) {q : PassId}
    (h : Crowded (passes.set p new) q) : Crowded passes q := by
  obtain ⟨pass, found_pass, crowded⟩ := h
  by_cases same : p = q
  · subst same
    rw [World.getElem?_set_of_some _ found, Option.some.injEq] at found_pass
    subst found_pass
    exact ⟨old, found, by simpa [Pass.isCrowded, length] using crowded⟩
  · exact ⟨pass, (List.getElem?_set_ne same).symm.trans found_pass, crowded⟩

include lineage running in
/-- Which calls could go on is changed in the one pass only. -/
theorem eager_set {call : CallId} {callers : List CallId}
    (h : Eager (passes.set p new) call callers) : Eager passes call callers ∨ call.pass = p ∧
      ∃ c, new.calls[call.position]? = some c ∧ c.status.isEager = true ∧
        ∀ c', old.calls[call.position]? = some c' → c'.status.isEager = true →
          Eager passes call callers := by
  obtain ⟨pass, c, found_pass, pass_running, pass_lineage, at_position, eager⟩ := h
  by_cases same : p = call.pass
  · subst same
    rw [World.getElem?_set_of_some _ found, Option.some.injEq] at found_pass
    subst found_pass
    exact .inr ⟨rfl, c, at_position, eager, fun c' old_position old_eager => ⟨old, c', found,
      running pass_running, lineage.symm.trans pass_lineage, old_position, old_eager⟩⟩
  · exact .inl ⟨pass, c, (List.getElem?_set_ne same).symm.trans found_pass, pass_running,
      pass_lineage, at_position, eager⟩

include lineage running in
theorem set (length : new.calls.length = old.calls.length)
    (eager : ∀ (i : Nat) (c : Call), new.calls[i]? = some c → c.status.isEager = true →
      ∃ c', old.calls[i]? = some c' ∧ c'.status.isEager = true) :
    Calms passes (passes.set p new) where
  runs q callers := runs_set found lineage running
  crowded q := crowded_set found length
  eager call callers h := by
    rcases eager_set found lineage running h with before | ⟨-, c, at_position, now, before⟩
    · exact before
    · obtain ⟨c', old_position, old_eager⟩ := eager _ c at_position now
      exact before c' old_position old_eager

end

/-- A call that cannot go on at once, for now, does not call for anybody. -/
theorem setCall {p : PassId} {old new : Pass} (found : passes[p]? = some old)
    (lineage : new.lineage = old.lineage) (phase : new.phase = old.phase) {i : Nat}
    {status : Status} (calls : new.calls = (old.setCall i status).calls)
    (not_eager : status.isEager = false) : Calms passes (passes.set p new) := by
  refine set found lineage (phase ▸ id) (by simp [calls, Pass.setCall])
    fun j c at_position eager => ?_
  rw [calls, Pass.getElem?_setCall] at at_position
  split at at_position
  · obtain ⟨c', -, rfl⟩ := Option.map_eq_some_iff.mp at_position
    simp [not_eager] at eager
  · exact ⟨c, at_position, eager⟩

theorem append {inner : Pass} (fresh : inner.phase = .fresh) (no_calls : inner.calls = []) :
    Calms passes (passes ++ [inner]) := by
  have old_of : ∀ {q : PassId} {pass : Pass}, (passes ++ [inner])[q]? = some pass →
      passes[q]? = some pass ∨ pass = inner := by
    intro q pass found
    rw [List.getElem?_append] at found
    split at found
    · exact .inl found
    · exact .inr (List.mem_singleton.mp (List.mem_of_getElem? found))
  refine ⟨?_, ?_, ?_⟩
  · rintro q callers ⟨pass, found, running, lineage⟩
    rcases old_of found with old | rfl
    · exact ⟨pass, old, running, lineage⟩
    · rw [fresh] at running
      cases running
  · rintro call callers ⟨pass, c, found, running, rest⟩
    rcases old_of found with old | rfl
    · exact ⟨pass, c, old, running, rest⟩
    · rw [fresh] at running
      cases running
  · rintro q ⟨pass, found, crowded⟩
    rcases old_of found with old | rfl
    · exact ⟨pass, old, crowded⟩
    · simp [Pass.isCrowded, no_calls] at crowded

end Calms

namespace Scene

/-- The pass, for which these calls wait, will be polled. -/
def Comes (s : Scene) : List CallId → PassId → Prop
  | [], q => s.focus.enters = some q ∨ s.waking.again = true ∨ s.focus.outermost ≠ some q
  | call :: callers, q => s.focus.enters = some q ∨ s.focus.polls = some call ∨
      (call ∈ s.waking.due ∧ call.pass ∈ s.focus.turning) ∨
      (call ∈ s.waking.due ∨ ¬ Crowded s.passes call.pass) ∧ s.Comes callers call.pass

/-- The call, for whose pass these calls wait, will be polled. -/
def Hears (s : Scene) (call : CallId) (callers : List CallId) : Prop :=
  s.focus.polls = some call ∨ (call ∈ s.waking.due ∧ call.pass ∈ s.focus.turning) ∨
    (call ∈ s.waking.due ∨ ¬ Crowded s.passes call.pass) ∧ s.Comes callers call.pass

theorem comes_of_enters {s : Scene} {q : PassId} (h : s.focus.enters = some q)
    (callers : List CallId) : s.Comes callers q := by
  cases callers with
  | nil => exact .inl h
  | cons call callers => exact .inl h

/-- Every pass that has asked for it is polled, and every pass with a call that is due. -/
structure Orderly (s : Scene) : Prop where
  asked : ∀ q ∈ s.waking.asked, ∀ callers, Runs s.passes q callers → s.Comes callers q
  due : ∀ call ∈ s.waking.due, ∀ callers, Runs s.passes call.pass callers →
    call.pass ∈ s.focus.turning ∨ s.Comes callers call.pass

/-- Moreover, every call that could go on is polled. -/
structure Attentive (s : Scene) : Prop extends s.Orderly where
  heard : ∀ call callers, Eager s.passes call callers → s.Hears call callers

/-- Whoever was to be polled in the one scene is to be polled in the next. -/
structure Carries (s s' : Scene) : Prop where
  comes : ∀ q callers, Runs s'.passes q callers → s.focus.enters ≠ some q → s.Comes callers q →
    s'.Comes callers q
  hears : ∀ call callers, Eager s'.passes call callers → s.Hears call callers →
    s'.Hears call callers

/-- Nobody runs, has asked or is due who was not before, or they are polled; of the pass that is
polled next in the first scene, this need not be said. -/
structure Settles (s s' : Scene) : Prop where
  runs : ∀ q callers, s.focus.enters ≠ some q → Runs s'.passes q callers →
    Runs s.passes q callers
  asked : ∀ q ∈ s'.waking.asked, ∀ callers, Runs s'.passes q callers →
    (q ∈ s.waking.asked ∧ s.focus.enters ≠ some q) ∨ s'.focus.enters = some q
  due : ∀ call ∈ s'.waking.due, ∀ callers, Runs s'.passes call.pass callers →
    (call ∈ s.waking.due ∧ call.pass ∉ s.focus.turning ∧ s.focus.enters ≠ some call.pass) ∨
      call.pass ∈ s'.focus.turning ∨ s'.Comes callers call.pass

theorem Carries.orderly {s s' : Scene} (h : s.Carries s') (settles : s.Settles s')
    (before : s.Orderly) : s'.Orderly where
  asked q hq callers runs := by
    rcases settles.asked q hq callers runs with ⟨old, other⟩ | enters
    · have comes := before.asked q old callers (settles.runs q callers other runs)
      exact h.comes q callers runs other comes
    · exact comes_of_enters enters callers
  due call hc callers runs := by
    rcases settles.due call hc callers runs with ⟨old, not_turning, other⟩ | now
    · have comes := (before.due call old callers (settles.runs _ callers other runs)).resolve_left
        not_turning
      exact .inr (h.comes _ callers runs other comes)
    · exact now

theorem Carries.attentive {s s' : Scene} (h : s.Carries s') (settles : s.Settles s')
    (before : s.Attentive)
    (eager : ∀ call callers, Eager s'.passes call callers →
      Eager s.passes call callers ∨ s'.Hears call callers) : s'.Attentive where
  toOrderly := h.orderly settles before.toOrderly
  heard call callers now := by
    rcases eager call callers now with old | hears
    · exact h.hears call callers now (before.heard call callers old)
    · exact hears

/-- Every single reason to be polled is still there. -/
structure Extends (s s' : Scene) : Prop where
  top : ∀ q, s.Comes [] q → s'.Comes [] q
  crowded : ∀ p, Crowded s'.passes p → Crowded s.passes p
  enters : ∀ q, s.focus.enters = some q → s'.focus.enters = some q
  polls : ∀ call, s.focus.polls = some call → s'.focus.polls = some call
  turning : ∀ p ∈ s.focus.turning, p ∈ s'.focus.turning
  due : ∀ call ∈ s.waking.due, call ∈ s'.waking.due

namespace Extends
variable {s s' : Scene} (h : s.Extends s')
include h

theorem alone {call : CallId} (alone : call ∈ s.waking.due ∨ ¬ Crowded s.passes call.pass) :
    call ∈ s'.waking.due ∨ ¬ Crowded s'.passes call.pass :=
  alone.imp (h.due call) fun alone crowded => alone (h.crowded _ crowded)

theorem comes {callers : List CallId} {q : PassId} (comes : s.Comes callers q) :
    s'.Comes callers q := by
  induction callers generalizing q with
  | nil => exact h.top q comes
  | cons call callers ih =>
    rcases comes with enters | polls | ⟨due, turning⟩ | ⟨alone, comes⟩
    · exact .inl (h.enters q enters)
    · exact .inr (.inl (h.polls call polls))
    · exact .inr (.inr (.inl ⟨h.due call due, h.turning _ turning⟩))
    · exact .inr (.inr (.inr ⟨h.alone alone, ih comes⟩))

theorem hears {call : CallId} {callers : List CallId} (hears : s.Hears call callers) :
    s'.Hears call callers := by
  rcases hears with polls | ⟨due, turning⟩ | ⟨alone, comes⟩
  · exact .inl (h.polls call polls)
  · exact .inr (.inl ⟨h.due call due, h.turning _ turning⟩)
  · exact .inr (.inr ⟨h.alone alone, h.comes comes⟩)

theorem carries : s.Carries s' :=
  ⟨fun _ _ _ _ comes => h.comes comes, fun _ _ _ hears => h.hears hears⟩

theorem settles (runs : ∀ q callers, Runs s'.passes q callers → Runs s.passes q callers)
    (asked : ∀ q ∈ s'.waking.asked, q ∈ s.waking.asked)
    (due : ∀ call ∈ s'.waking.due, call ∈ s.waking.due) : s.Settles s' where
  runs q callers _ := runs q callers
  asked q hq _ _ := by
    by_cases enters : s.focus.enters = some q
    · exact .inr (h.enters q enters)
    · exact .inl ⟨asked q hq, enters⟩
  due call hc callers _ := by
    by_cases turning : call.pass ∈ s.focus.turning
    · exact .inr (.inl (h.turning _ turning))
    · by_cases enters : s.focus.enters = some call.pass
      · exact .inr (.inr (comes_of_enters (h.enters _ enters) callers))
      · exact .inl ⟨due call hc, turning, enters⟩

end Extends

/-- The call will be polled, or the inner pass at once if there is one. -/
def Reaches (s : Scene) (inner : Option PassId) (call : CallId) (callers : List CallId) : Prop :=
  inner ≠ none ∧ s.focus.enters = inner ∨ s.Hears call callers

/-- Every single reason to be polled on which somebody relies is still there, or they are polled
for another. -/
structure Relays (s s' : Scene) : Prop where
  top : ∀ q, Runs s'.passes q [] → s.focus.enters ≠ some q → s.Comes [] q → s'.Comes [] q
  crowded : ∀ p, s.focus.enters ≠ some p → Crowded s'.passes p → Crowded s.passes p
  enters : ∀ inner call callers, Wants s'.passes inner call callers →
    call ∈ s.waking.due ∨ ¬ Crowded s.passes call.pass → s.focus.enters = some call.pass →
    s'.Reaches inner call callers
  polls : ∀ inner call callers, Wants s'.passes inner call callers → s.focus.polls = some call →
    s'.Reaches inner call callers
  turning : ∀ inner call callers, Wants s'.passes inner call callers → call ∈ s.waking.due →
    call.pass ∈ s.focus.turning → s'.Reaches inner call callers
  due : ∀ inner call callers, Wants s'.passes inner call callers → call ∈ s.waking.due →
    call ∈ s'.waking.due ∨ s'.Reaches inner call callers

namespace Relays
variable {s s' : Scene}

theorem alone (h : s.Relays s') {inner : Option PassId} {call : CallId} {callers : List CallId}
    (wants : Wants s'.passes inner call callers)
    (alone : call ∈ s.waking.due ∨ ¬ Crowded s.passes call.pass)
    (other : s.focus.enters ≠ some call.pass) (comes : s'.Comes callers call.pass) :
    s'.Reaches inner call callers := by
  rcases alone with due | alone
  · rcases h.due inner call callers wants due with still | reached
    · exact .inr (.inr (.inr ⟨.inl still, comes⟩))
    · exact reached
  · exact .inr (.inr (.inr ⟨.inr fun crowded => alone (h.crowded _ other crowded), comes⟩))

theorem reaches (h : s.Relays s') (attended : Attended s'.passes) {inner : Option PassId}
    {call : CallId} {callers : List CallId} (wants : Wants s'.passes inner call callers)
    (hears : s.Hears call callers) : s'.Reaches inner call callers := by
  induction callers generalizing inner call with
  | nil =>
    rcases hears with polls | ⟨due, turning⟩ | ⟨heard, comes⟩
    · exact h.polls inner call [] wants polls
    · exact h.turning inner call [] wants due turning
    · by_cases enters : s.focus.enters = some call.pass
      · exact h.enters inner call [] wants heard enters
      · exact h.alone wants heard enters (h.top call.pass (wants.runs attended) enters comes)
  | cons caller callers ih =>
    rcases hears with polls | ⟨due, turning⟩ | ⟨heard, comes⟩
    · exact h.polls inner call _ wants polls
    · exact h.turning inner call _ wants due turning
    · by_cases enters : s.focus.enters = some call.pass
      · exact h.enters inner call _ wants heard enters
      · have reached := ih (.pass (wants.runs attended)) (comes.resolve_left enters)
        exact h.alone wants heard enters (reached.imp_left And.right)

theorem carries (h : s.Relays s') (attended : Attended s'.passes) : s.Carries s' where
  comes q callers runs other comes := by
    cases callers with
    | nil => exact h.top q runs other comes
    | cons call callers =>
      exact (h.reaches attended (.pass runs) (comes.resolve_left other)).imp_left And.right
  hears call callers eager hears := by
    rcases h.reaches attended (.call eager) hears with ⟨nobody, -⟩ | hears'
    · exact absurd rfl nobody
    · exact hears'

end Relays

section
variable {passes passes' : List Pass} {waking waking' : Waking} {focus focus' : Focus}
  {p q : PassId} {call : CallId}

theorem Attentive.extend (before : Attentive ⟨passes, waking, focus⟩)
    (extends_to : Extends ⟨passes, waking, focus⟩ ⟨passes', waking', focus'⟩)
    (runs : ∀ q callers, Runs passes' q callers → Runs passes q callers)
    (eager : ∀ call callers, Eager passes' call callers → Eager passes call callers)
    (asked : ∀ q ∈ waking'.asked, q ∈ waking.asked)
    (due : ∀ call ∈ waking'.due, call ∈ waking.due) : Attentive ⟨passes', waking', focus'⟩ :=
  extends_to.carries.attentive (extends_to.settles runs asked due) before
    fun call callers now => .inl (eager call callers now)

theorem extends_of_calms (calms : Calms passes passes') :
    Extends ⟨passes, waking, focus⟩ ⟨passes', waking, focus⟩ :=
  ⟨fun _ => id, calms.crowded, fun _ => id, fun _ => id, fun _ => id, fun _ => id⟩

theorem Attentive.calm (before : Attentive ⟨passes, waking, focus⟩)
    (calms : Calms passes passes') : Attentive ⟨passes', waking, focus⟩ :=
  before.extend (extends_of_calms calms) calms.runs calms.eager (fun _ => id) fun _ => id

/-- A call of a pass in its turn is polled. -/
theorem Attentive.poll (before : Attentive ⟨passes, waking, focus⟩) (no_polls : focus.polls = none)
    (call : CallId) : Attentive ⟨passes, waking, { focus with polls := some call }⟩ := by
  refine before.extend ⟨fun _ => id, fun _ => id, fun _ => id, fun other polls => ?_, fun _ => id,
    fun _ => id⟩ (fun _ _ => id) (fun _ _ => id) (fun _ => id) fun _ => id
  simp [no_polls] at polls

/-- Between two polls every pass may wait for the next. -/
theorem Attentive.rest (before : Attentive ⟨passes, waking, focus⟩)
    (no_enters : focus.enters = none) (no_polls : focus.polls = none)
    (no_turning : focus.turning = []) :
    Attentive ⟨passes, waking, {}⟩ := by
  refine before.extend ⟨fun _ _ => .inr (.inr (by simp)), fun _ => id, fun q enters => ?_,
    fun call polls => ?_, fun p turning => ?_, fun _ => id⟩ (fun _ _ => id) (fun _ _ => id)
    (fun _ => id) fun _ => id
  · simp [no_enters] at enters
  · simp [no_polls] at polls
  · simp [no_turning] at turning

/-- A poll begins, of a pass that is not raised by anybody. -/
theorem Attentive.start (before : Attentive ⟨passes, waking, {}⟩) (p : PassId) :
    Attentive ⟨passes, { waking with again := false },
      { outermost := some p, enters := some p }⟩ := by
  refine before.extend ⟨fun q _ => ?_, fun _ => id, nofun, nofun, nofun, fun _ => id⟩
    (fun _ _ => id) (fun _ _ => id) (fun _ => id) fun _ => id
  by_cases same : p = q
  · exact .inl (congrArg some same)
  · exact .inr (.inr fun enters => same (Option.some.inj enters))

/-- The turn of another pass does not matter to those further out. -/
theorem Comes.of_turn {callers : List CallId} (apart : ∀ call ∈ callers, call.pass ≠ p)
    (h : Comes ⟨passes, waking, { focus with turning := p :: focus.turning }⟩ callers q) :
    Comes ⟨passes, waking, focus⟩ callers q := by
  induction callers generalizing q with
  | nil => exact h
  | cons call callers ih =>
    rcases h with enters | polls | ⟨due, turning⟩ | ⟨alone, comes⟩
    · exact .inl enters
    · exact .inr (.inl polls)
    · have turning := (List.mem_cons.mp turning).resolve_left (apart call List.mem_cons_self)
      exact .inr (.inr (.inl ⟨due, turning⟩))
    · have further := ih (fun other hc => apart other (List.mem_cons_of_mem _ hc)) comes
      exact .inr (.inr (.inr ⟨alone, further⟩))

/-- While no pass begins its turn or is opened, the relays are all that has to be looked after. -/
theorem Relays.attentive (relays : Relays ⟨passes, waking, focus⟩ ⟨passes, waking', focus'⟩)
    (before : Attentive ⟨passes, waking, focus⟩) (attended : Attended passes)
    (other : ∀ q callers, Runs passes q callers → focus.enters ≠ some q)
    (asked : ∀ q ∈ waking'.asked, q ∈ waking.asked) (due : ∀ call ∈ waking'.due, call ∈ waking.due)
    (turning : ∀ call ∈ waking'.due, call.pass ∈ focus.turning → ∀ callers,
      Runs passes call.pass callers →
        call.pass ∈ focus'.turning ∨ Comes ⟨passes, waking', focus'⟩ callers call.pass) :
    Attentive ⟨passes, waking', focus'⟩ := by
  refine (relays.carries attended).attentive ⟨fun _ _ _ runs => runs, fun q hq callers runs => ?_,
    fun call hc callers runs => ?_⟩ before fun _ _ => .inl
  · exact .inl ⟨asked q hq, other q callers runs⟩
  · by_cases turns : call.pass ∈ focus.turning
    · exact .inr (turning call hc turns callers runs)
    · exact .inl ⟨due call hc, turns, other _ callers runs⟩

section
variable (attended : Attended passes) (no_enters : focus.enters = none)
include attended no_enters

/-- The next call that is due is taken. -/
theorem Attentive.take (before : Attentive ⟨passes, waking, focus⟩) (no_polls : focus.polls = none)
    {polled : Option CallId}
    (relied : ∀ inner callers, Wants passes inner call callers → polled = some call) :
    Attentive ⟨passes, { waking with due := waking.due.erase call },
      { focus with polls := polled }⟩ := by
  have erased : ∀ other ∈ waking.due, other = call ∨ other ∈ waking.due.erase call := by
    intro other due
    by_cases same : other = call
    · exact .inl same
    · exact .inr ((List.mem_erase_of_ne same).mpr due)
  have relays : Relays ⟨passes, waking, focus⟩
      ⟨passes, { waking with due := waking.due.erase call }, { focus with polls := polled }⟩ := by
    refine ⟨fun _ _ _ comes => comes, fun _ _ => id, ?_, ?_, ?_, ?_⟩
    · intro inner other callers _ _ enters
      simp [no_enters] at enters
    · intro inner other callers _ polls
      simp [no_polls] at polls
    · intro inner other callers wants due turning
      rcases erased other due with rfl | still
      · exact .inr (.inl (relied inner callers wants))
      · exact .inr (.inr (.inl ⟨still, turning⟩))
    · intro inner other callers wants due
      rcases erased other due with rfl | still
      · exact .inr (.inr (.inl (relied inner callers wants)))
      · exact .inl still
  exact relays.attentive before attended (by simp [no_enters]) (fun _ => id)
    (fun _ => List.mem_of_mem_erase) fun _ _ turning _ _ => .inl turning

/-- A call on which nobody relies is not polled any further. -/
theorem Attentive.pass_by
    (before : Attentive ⟨passes, waking, { focus with polls := some call }⟩)
    (nobody : ∀ inner callers, ¬ Wants passes inner call callers) :
    Attentive ⟨passes, waking, focus⟩ := by
  have relays : Relays ⟨passes, waking, { focus with polls := some call }⟩
      ⟨passes, waking, focus⟩ := by
    refine ⟨fun _ _ _ comes => comes, fun _ _ => id, ?_, ?_, ?_, fun _ _ _ _ => .inl⟩
    · intro inner other callers _ _ enters
      simp [no_enters] at enters
    · intro inner other callers wants polls
      cases polls
      exact absurd wants (nobody inner callers)
    · intro inner other callers _ due turning
      exact .inr (.inr (.inl ⟨due, turning⟩))
  exact relays.attentive before attended (by simp [no_enters]) (fun _ => id) (fun _ => id)
    fun _ _ turning _ _ => .inl turning

/-- A pass leaves its turn, in which no call is due any more, or it will be polled again. -/
theorem Attentive.leave
    (before : Attentive ⟨passes, waking, { focus with turning := p :: focus.turning }⟩)
    (again : ∀ callers, Runs passes p callers →
      (∀ call ∈ waking.due, call.pass ≠ p) ∨ Comes ⟨passes, waking, focus⟩ callers p) :
    Attentive ⟨passes, waking, focus⟩ := by
  have left : ∀ call ∈ waking.due, call.pass ∈ p :: focus.turning → ∀ callers,
      Runs passes call.pass callers →
        call.pass ∈ focus.turning ∨ Comes ⟨passes, waking, focus⟩ callers call.pass := by
    intro call due turning callers runs
    rcases List.mem_cons.mp turning with same | turning
    · rcases again callers (same ▸ runs) with none_due | comes
      · exact absurd same (none_due call due)
      · exact .inr (same ▸ comes)
    · exact .inl turning
  have relays : Relays ⟨passes, waking, { focus with turning := p :: focus.turning }⟩
      ⟨passes, waking, focus⟩ := by
    refine ⟨fun _ _ _ comes => comes, fun _ _ => id, ?_, ?_, ?_, fun _ _ _ _ => .inl⟩
    · intro inner call callers _ _ enters
      simp [no_enters] at enters
    · intro inner call callers _ polls
      exact .inr (.inl polls)
    · intro inner call callers wants due turning
      rcases left call due turning callers (wants.runs attended) with turning | comes
      · exact .inr (.inr (.inl ⟨due, turning⟩))
      · exact .inr (.inr (.inr ⟨.inl due, comes⟩))
  exact relays.attentive before attended (by simp [no_enters]) (fun _ => id) (fun _ => id) left

/-- In place of the call that waits for it, the inner pass is polled. -/
theorem Attentive.enter
    (before : Attentive ⟨passes, waking, { focus with polls := some call }⟩)
    (only : ∀ inner callers, Wants passes inner call callers → inner = some q) :
    Attentive ⟨passes, waking, { focus with enters := some q }⟩ := by
  have relays : Relays ⟨passes, waking, { focus with polls := some call }⟩
      ⟨passes, waking, { focus with enters := some q }⟩ := by
    refine ⟨?_, fun _ _ => id, ?_, ?_, ?_, fun _ _ _ _ => .inl⟩
    · intro r _ _ comes
      exact .inr (comes.resolve_left (by simp [no_enters]))
    · intro inner other callers _ _ enters
      simp [no_enters] at enters
    · intro inner other callers wants polls
      cases polls
      have inner_eq := only inner callers wants
      exact .inl ⟨by simp [inner_eq], inner_eq.symm⟩
    · intro inner other callers _ due turning
      exact .inr (.inr (.inl ⟨due, turning⟩))
  exact relays.attentive before attended (by simp [no_enters]) (fun _ => id) (fun _ => id)
    fun _ _ turning _ _ => .inl turning

omit no_enters in
/-- A pass that is not under way is not polled after all. -/
theorem Attentive.turn_away
    (before : Attentive ⟨passes, waking, { focus with enters := some p }⟩)
    (stopped : ∀ callers, ¬ Runs passes p callers) :
    Attentive ⟨passes, waking, { focus with enters := none }⟩ := by
  have other : ∀ q callers, Runs passes q callers → some p ≠ some q := by
    rintro q callers runs ⟨⟩
    exact stopped callers runs
  have relays : Relays ⟨passes, waking, { focus with enters := some p }⟩
      ⟨passes, waking, { focus with enters := none }⟩ := by
    refine ⟨?_, fun _ _ => id, ?_, ?_, ?_, fun _ _ _ _ => .inl⟩
    · intro q _ other comes
      exact .inr (comes.resolve_left other)
    · intro inner call callers wants _ enters
      exact absurd enters (other _ callers (wants.runs attended))
    · intro inner call callers _ polls
      exact .inr (.inl polls)
    · intro inner call callers _ due turning
      exact .inr (.inr (.inl ⟨due, turning⟩))
  exact relays.attentive before attended other (fun _ => id) (fun _ => id)
    fun _ _ turning _ _ => .inl turning

end

/-- A pass begins its turn, in which these calls become due. It may have been opened just now. -/
theorem Attentive.begin_turn
    (before : Attentive ⟨passes, waking, { focus with enters := some p }⟩)
    (attended : Attended passes') {more : List CallId}
    (own : ∀ call ∈ more, call.pass = p)
    (crowded : ∀ q, q ≠ p → Crowded passes' q → Crowded passes q)
    (runs : ∀ q callers, q ≠ p → Runs passes' q callers → Runs passes q callers)
    (eager : ∀ call callers, Eager passes' call callers →
      Eager passes call callers ∨ call ∈ more)
    (polled : ∀ inner call callers, Wants passes' inner call callers → call.pass = p →
      ¬ Crowded passes p → call ∈ more) :
    Attentive ⟨passes', (waking.enqueue more).answer p,
      { focus with turning := p :: focus.turning }⟩ := by
  have still : ∀ call ∈ waking.due, call ∈ waking.due ++ more :=
    fun call due => List.mem_append_left _ due
  have relays : Relays ⟨passes, waking, { focus with enters := some p }⟩
      ⟨passes', (waking.enqueue more).answer p, { focus with turning := p :: focus.turning }⟩ := by
    refine ⟨?_, ?_, ?_, ?_, ?_, fun _ call _ _ due => .inl (still call due)⟩
    · intro q _ other comes
      exact .inr (comes.resolve_left other)
    · intro q other now
      exact crowded q (fun same => other (congrArg some same.symm)) now
    · intro inner call callers wants alone enters
      have same : call.pass = p := (Option.some.inj enters).symm
      have due : call ∈ waking.due ++ more := by
        rcases alone with due | alone
        · exact still call due
        · exact List.mem_append_right _ (polled inner call callers wants same (same ▸ alone))
      exact .inr (.inr (.inl ⟨due, same ▸ List.mem_cons_self⟩))
    · intro inner call callers _ polls
      exact .inr (.inl polls)
    · intro inner call callers _ due turning
      exact .inr (.inr (.inl ⟨still call due, List.mem_cons_of_mem _ turning⟩))
  refine (relays.carries attended).attentive ⟨?_, ?_, ?_⟩ before ?_
  · exact fun q callers other now =>
      runs q callers (fun same => other (congrArg some same.symm)) now
  · intro q hq _ _
    obtain ⟨old, other⟩ := List.mem_filter.mp hq
    refine .inl ⟨old, fun enters => ?_⟩
    simp [Option.some.inj enters] at other
  · intro call due callers now
    by_cases turning : call.pass ∈ p :: focus.turning
    · exact .inr (.inl turning)
    · simp only [List.mem_cons, not_or] at turning
      rcases List.mem_append.mp due with old | new
      · exact .inl ⟨old, turning.2, fun enters => turning.1 (Option.some.inj enters).symm⟩
      · exact absurd (own call new) turning.1
  · intro call callers now
    refine (eager call callers now).imp id fun new => .inr (.inl ?_)
    exact ⟨List.mem_append_right _ new, own call new ▸ List.mem_cons_self⟩

end
end Scene
end Fanout
