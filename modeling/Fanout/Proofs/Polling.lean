import Fanout.Proofs.Run
import Fanout.Proofs.Lineage

/-! What a poll keeps. The pass that is polled runs, and every frame around it holds a call that
waits for the pass inside; because waiting goes one way, nothing that an inner pass does disturbs
the frames around it. Hence every tick consists of changes, but for the first poll of a pass, which
opens it before. -/
namespace Fanout

def IsBusy (passes : List Pass) (p : PassId) (i : Nat) : Prop :=
  ∃ pass call, passes[p]? = some pass ∧ pass.calls[i]? = some call ∧ call.status.isRunning = true

/-- Every frame holds a call of a running pass that waits for the pass inside. -/
inductive Stacked (passes : List Pass) : PassId → List Frame → Prop
  | outermost (p : PassId) : Stacked passes p []
  | within {p : PassId} {frame : Frame} {outer : List Frame} {pass : Pass}
      (found : passes[frame.pass]? = some pass) (running : pass.phase = .running)
      (waits : pass.Awaits frame.call p) (around : Stacked passes frame.pass outer) :
      Stacked passes p (frame :: outer)

/-- The pass is being polled, with these frames around it. -/
structure Turning (passes : List Pass) (p : PassId) (outer : List Frame) : Prop where
  running : ∃ pass, passes[p]? = some pass ∧ pass.phase = .running
  stacked : Stacked passes p outer

theorem Turning.phase {passes : List Pass} {p : PassId} {outer : List Frame}
    (h : Turning passes p outer) {pass : Pass} (found : passes[p]? = some pass) :
    pass.phase = .running := by
  obtain ⟨_, same, running⟩ := h.running
  rw [found, Option.some.injEq] at same
  exact same ▸ running

def Concluding (passes : List Pass) : List Frame → Prop
  | [] => True
  | frame :: outer => Turning passes frame.pass outer ∧ IsBusy passes frame.pass frame.call

section
variable {passes passes' : List Pass} {p : PassId} {outer : List Frame}
  (keep : ∀ (q : PassId) (pass : Pass), passes[q]? = some pass → passes'[q]? = some pass)
include keep

theorem Stacked.mono (h : Stacked passes p outer) : Stacked passes' p outer := by
  induction h with
  | outermost p => exact .outermost p
  | within found running waits _ ih => exact .within (keep _ _ found) running waits ih

theorem Turning.mono (h : Turning passes p outer) : Turning passes' p outer := by
  obtain ⟨⟨pass, found, running⟩, stacked⟩ := h
  exact ⟨⟨pass, keep p pass found, running⟩, stacked.mono keep⟩

theorem IsBusy.mono {i : Nat} (h : IsBusy passes p i) : IsBusy passes' p i := by
  obtain ⟨pass, call, found, at_position, running⟩ := h
  exact ⟨pass, call, keep p pass found, at_position, running⟩

theorem Concluding.mono {frames : List Frame} (h : Concluding passes frames) :
    Concluding passes' frames := by
  cases frames with
  | nil => trivial
  | cons frame outer => exact ⟨h.1.mono keep, h.2.mono keep⟩

end

/-- The frame around a pass is one of a call that can end. -/
theorem Stacked.concluding {passes : List Pass} {p : PassId} {outer : List Frame}
    (h : Stacked passes p outer) : Concluding passes outer := by
  cases h with
  | outermost p => trivial
  | within found running waits around =>
    obtain ⟨call, number, propagate, rest, at_position, status⟩ := waits
    exact ⟨⟨⟨_, found, running⟩, around⟩, ⟨_, call, found, at_position, by rw [status]; rfl⟩⟩

section
variable {w : World} (linked : w.Linked) {p : PassId} {outer : List Frame}
include linked

/-- The frames around a pass belong to earlier passes. -/
theorem Stacked.unmoved (h : Stacked w.passes p outer) {passes : List Pass}
    (same : ∀ q < p, passes[q]? = w.passes[q]?) : Stacked passes p outer := by
  induction h with
  | outermost p => exact .outermost p
  | @within p frame outer pass found running waits _ ih =>
    obtain ⟨inner, hp, lineage⟩ := linked.inner frame.pass pass found frame.call p waits
    have earlier : frame.pass < p :=
      linked.earlier p inner hp ⟨frame.pass, frame.call⟩ (by rw [lineage]; exact List.mem_cons_self)
    exact .within ((same _ earlier).trans found) running waits
      (ih fun q hq => same q (hq.trans earlier))

theorem Stacked.set (h : Stacked w.passes p outer) (pass : Pass) :
    Stacked (w.passes.set p pass) p outer :=
  h.unmoved linked fun _ hq => List.getElem?_set_ne hq.ne'

theorem Turning.set (h : Turning w.passes p outer) {pass : Pass} (running : pass.phase = .running) :
    Turning (w.passes.set p pass) p outer := by
  obtain ⟨⟨_, found, -⟩, stacked⟩ := h
  exact ⟨⟨pass, World.getElem?_set_of_some _ found, running⟩, stacked.set linked pass⟩

end

namespace Machine

/-- What the control of a machine says about its world. -/
def Positioned (m : Machine) : Prop :=
  match m.control with
  | .entering p outer => Stacked m.world.passes p outer
  | .choosing turn outer => Turning m.world.passes turn.pass outer
  | .polling frame outer => Turning m.world.passes frame.pass outer
  | .leaving p outer => Stacked m.world.passes p outer
  | .ending _ frames => Concluding m.world.passes frames
  | .settled _ => True

/-- The machine has come from the world by changes, and it is positioned. -/
structure Follows (w : World) (m : Machine) : Prop where
  changes : w.Changes m.world
  positioned : m.Positioned

theorem Follows.after {w w' : World} {m : Machine} (h : Follows w' m) (before : w.Changes w') :
    Follows w m := ⟨before.trans h.changes, h.positioned⟩

end Machine

namespace World

theorem Deed.changes {w w' : World} (h : Deed w w') : w.Changes w' := .single (.deed h)

theorem IsCall.of_call? {w : World} {p : PassId} {i : Nat} {pass : Pass} {call : Call}
    (found : w.passes[p]? = some pass) (running : pass.phase = .running)
    (h : w.call? p i = some call) : w.IsCall p i pass call :=
  ⟨found, running, by simpa [call?, found] using h⟩

theorem IsCall.call? {w : World} {p : PassId} {i : Nat} {pass : Pass} {call : Call}
    (h : w.IsCall p i pass call) : w.call? p i = some call := by
  simp [World.call?, h.found, h.at_position]

/-- Who waits for a pass that is raised by the caller, or from outside. -/
def lineageOf : Option (CallId × Pass) → List CallId
  | some (call, pass) => call :: pass.lineage
  | none => []

theorem summon_eq_ok {w started : World} {caller : Option (CallId × Pass)} {summons : Summons}
    {p : PassId} (h : w.summon caller summons = .ok (p, started)) :
    ∃ d token, w.Named d ∧ (p, started) = w.start d token summons.sender summons.args
      (lineageOf caller) := by
  obtain ⟨d, named, h⟩ := bind_eq_ok h
  dsimp only at h
  split at h
  all_goals
    obtain ⟨token, -, h⟩ := bind_eq_ok h
    simp only [pure_eq_ok] at h
    exact ⟨d, token, dispatcherCalled_eq_ok named, h.symm⟩

theorem getElem?_append_of_some {α : Type} {l : List α} {i : Nat} {a : α} (h : l[i]? = some a)
    (last : List α) : (l ++ last)[i]? = some a := by
  rw [List.getElem?_append_left (List.getElem?_eq_some_iff.mp h).1, h]

/-- The pass may be given up with this ending: it is not completed by that, and a panic does not
end it if its dispatcher isolates panics. -/
structure GivesUp (w : World) (p : PassId) (ending : Ending) : Prop where
  incomplete : ∀ error, ending ≠ .completed error
  unisolated : ∀ pass payload, w.passes[p]? = some pass → ending = .panicked payload →
    (w.settings pass.dispatcher).isolatePanics = false

theorem givesUp_dropped (w : World) (p : PassId) : w.GivesUp p .dropped :=
  ⟨by simp, fun _ _ _ panicked => by cases panicked⟩

theorem GivesUp.abandonPass {w : World} {p : PassId} {ending : Ending} (h : w.GivesUp p ending)
    (q : PassId) : (w.abandonPass q .dropped).GivesUp p ending := by
  refine ⟨h.incomplete, fun pass payload found panicked => ?_⟩
  have settings : ∀ d, (w.abandonPass q .dropped).settings d = w.settings d := by
    intro d
    simp only [World.settings, dispatcher, (abandonPass_aside w q .dropped).1]
  rw [settings]
  cases hq : w.passes[q]? with
  | none =>
    have same : w.abandonPass q .dropped = w := by simp [World.abandonPass, hq]
    exact h.unisolated pass payload (same ▸ found) panicked
  | some other =>
    cases isOpen : other.phase.isOpen with
    | false =>
      have same : w.abandonPass q .dropped = w := by simp [World.abandonPass, hq, isOpen]
      exact h.unisolated pass payload (same ▸ found) panicked
    | true =>
      rw [passes_abandonPass hq isOpen] at found
      by_cases same : q = p
      · subst same
        rw [getElem?_set_of_some _ hq, Option.some.injEq] at found
        exact found ▸ h.unisolated other payload hq panicked
      · rw [List.getElem?_set_ne same] at found
        exact h.unisolated pass payload found panicked

theorem changes_abandonPass (w : World) (p : PassId) {ending : Ending}
    (givesUp : w.GivesUp p ending) : w.Changes (w.abandonPass p ending) := by
  cases found : w.passes[p]? with
  | none =>
    have same : w.abandonPass p ending = w := by simp [abandonPass, found]
    exact same.symm ▸ .refl
  | some pass =>
    cases isOpen : pass.phase.isOpen with
    | false =>
      have same : w.abandonPass p ending = w := by simp [abandonPass, found, isOpen]
      exact same.symm ▸ .refl
    | true =>
      exact .single (.giveUp found isOpen givesUp.incomplete fun payload =>
        givesUp.unisolated pass payload found)

theorem changes_abandon (w : World) (p : PassId) {ending : Ending}
    (givesUp : w.GivesUp p ending) : w.Changes (w.abandon p ending) := by
  have all : ∀ (qs : List PassId) (v : World), v.GivesUp p ending →
      v.Changes ((qs.foldl (fun w q => w.abandonPass q .dropped) v).abandonPass p ending) := by
    intro qs
    induction qs with
    | nil => exact fun v hv => changes_abandonPass v p hv
    | cons q qs ih =>
      exact fun v hv =>
        (changes_abandonPass v q (givesUp_dropped v q)).trans (ih _ (hv.abandonPass q))
  exact all _ w givesUp

theorem passes_abandonPass_of_ne (w : World) {p q : PassId} (other : p ≠ q) (ending : Ending) :
    (w.abandonPass p ending).passes[q]? = w.passes[q]? := by
  cases found : w.passes[p]? with
  | none => simp [abandonPass, found]
  | some pass =>
    cases isOpen : pass.phase.isOpen with
    | false => simp [abandonPass, found, isOpen]
    | true => rw [passes_abandonPass found isOpen, List.getElem?_set_ne other]

theorem lt_of_mem_descendants {w : World} (linked : w.Linked) {p q : PassId}
    (h : q ∈ w.descendants p) : p < q := by
  have waits := (List.mem_filter.mp h).2
  split at waits
  · rename_i pass found
    obtain ⟨call, hc, hp⟩ := List.any_eq_true.mp waits
    have earlier := linked.earlier q pass found call hc
    rwa [of_decide_eq_true hp] at earlier
  · cases waits

theorem passes_abandonPasses_of_not_mem (w : World) {qs : List PassId} {q : PassId}
    (other : q ∉ qs) :
    (qs.foldl (fun w r => w.abandonPass r .dropped) w).passes[q]? = w.passes[q]? := by
  induction qs generalizing w with
  | nil => rfl
  | cons r rs ih =>
    obtain ⟨first, rest⟩ := not_or.mp (List.mem_cons.not.mp other)
    exact (ih _ rest).trans (passes_abandonPass_of_ne w (Ne.symm first) .dropped)

theorem passes_abandon_of_lt {w : World} (linked : w.Linked) {p q : PassId} (earlier : q < p)
    (ending : Ending) : (w.abandon p ending).passes[q]? = w.passes[q]? := by
  have outside : q ∉ w.descendants p :=
    fun inner => earlier.not_gt (lt_of_mem_descendants linked inner)
  exact (passes_abandonPass_of_ne _ earlier.ne' ending).trans
    (w.passes_abandonPasses_of_not_mem outside)

/-- What one step of a call comes to: the passes that are there stay as they are, and a pass to be
waited for has been started by the call. -/
structure Taken (w : World) (p : PassId) (i : Nat) (pass : Pass) (result : World × Effect) :
    Prop where
  changes : w.Changes result.1
  kept : ∀ (q : PassId) (x : Pass), w.passes[q]? = some x → result.1.passes[q]? = some x
  inner : ∀ q propagate, result.2 = .goOn (.pass q propagate) → result.1.IsInner p pass i q

theorem Deed.taken {w : World} {p : PassId} {i : Nat} {pass : Pass} {result : World × Effect}
    (h : Deed w result.1) (alone : ∀ q propagate, result.2 ≠ .goOn (.pass q propagate)) :
    Taken w p i pass result :=
  ⟨h.changes, fun _ _ found => h.passes ▸ found,
    fun q propagate hr => absurd hr (alone q propagate)⟩

theorem Deed.taken_tell {w : World} {p : PassId} {i : Nat} {pass : Pass} {h : HandlerId}
    {after : World} (deed : Deed w after) (note : Note) :
    Taken w p i pass (after.tell p i h note, .goOn .ready) :=
  ⟨deed.changes.trans (Deed.tell p i h note).changes, fun _ _ found => deed.passes ▸ found,
    by simp⟩

theorem taken_afterAction {w : World} {p : PassId} {i : Nat} {pass : Pass} {h : HandlerId}
    {after : World} (deed : Deed w after) (action : Action) (propagate : Bool) (answer : Answer) :
    Taken w p i pass (afterAction p i h action propagate (after, answer)) := by
  unfold afterAction
  split
  · rename_i error heq
    cases heq
    split
    · exact deed.taken (by simp)
    · exact deed.taken_tell _
  · rename_i heq
    cases heq
    exact deed.taken_tell _

theorem take_taken {w : World} {p : PassId} {i : Nat} {pass : Pass}
    (found : w.passes[p]? = some pass) (h : HandlerId) (step : Step) :
    Taken w p i pass (w.take p i pass h step) := by
  cases step with
  | say text => exact (Deed.nothing w).taken_tell _
  | finish => exact (Deed.nothing w).taken (by simp [take])
  | linger times => cases times <;> exact (Deed.nothing w).taken (by simp [take])
  | waitFor gate => exact (Deed.nothing w).taken (by simp [take])
  | arrive gate expected => exact (Deed.arriveAt w gate).taken (by simp [take])
  | fail error => exact (Deed.nothing w).taken (by simp [take])
  | failWithOccasion => exact (Deed.nothing w).taken (by simp [take])
  | failBelow bound =>
    simp only [take]
    split <;> exact (Deed.nothing w).taken (by simp)
  | failFor sender =>
    simp only [take]
    split <;> exact (Deed.nothing w).taken (by simp)
  | panic payload => exact (Deed.nothing w).taken (by simp [take])
  | checkToken =>
    simp only [take]
    split <;> exact (Deed.nothing w).taken (by simp)
  | awaitToken => exact (Deed.nothing w).taken (by simp [take])
  | cancelToken => exact (Deed.cancelToken w pass.token).taken (by simp [take])
  | showToken => exact (Deed.nothing w).taken_tell _
  | act action propagate => exact taken_afterAction (Deed.perform w action) action propagate _
  | raise summons propagate =>
    simp only [take]
    split
    · rename_i q started hs
      obtain ⟨d, token, named, h⟩ := summon_eq_ok hs
      cases h
      refine ⟨.single (.start named token summons.sender summons.args
        (.inr ⟨⟨p, i⟩, pass, found, rfl⟩)), fun q x hq => getElem?_append_of_some hq _, ?_⟩
      intro q propagate hq
      cases hq
      exact ⟨_, List.getElem?_concat_length, rfl⟩
    · exact (Deed.nothing w).taken_tell _

end World
end Fanout
