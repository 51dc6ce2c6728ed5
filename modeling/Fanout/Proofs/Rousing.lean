import Fanout.Proofs.Attention
import Fanout.Proofs.Lifetime

/-! What waking does for attention. A call that is woken will be polled, because its pass is asked
for, and the pass that waits for this one, and so on outwards; the way ends early where somebody
further in has already gone it. Nothing that was promised before is taken back. -/
namespace Fanout

/-- Calls wait only for passes that come after their own. -/
def Descending (passes : List Pass) : Prop :=
  ∀ p callers, Runs passes p callers → ∀ call ∈ callers, call.pass < p

theorem World.Linked.descending {w : World} (linked : w.Linked) : Descending w.passes := by
  rintro p callers ⟨pass, found, -, rfl⟩
  exact linked.earlier p pass found

namespace Scene

/-- Some calls and passes more are to be polled, all of which will be. -/
structure Rouses (s s' : Scene) : Prop where
  passes : s'.passes = s.passes
  focus : s'.focus = s.focus
  again : s.waking.again = true → s'.waking.again = true
  due : ∀ call ∈ s.waking.due, call ∈ s'.waking.due
  new_due : ∀ call ∈ s'.waking.due, call ∈ s.waking.due ∨
    ∃ callers, Runs s.passes call.pass callers ∧ s'.Comes callers call.pass
  new_asked : ∀ q ∈ s'.waking.asked, q ∈ s.waking.asked ∨
    ∃ callers, Runs s.passes q callers ∧ s'.Comes callers q

/-- Orderly as far as the passes go that were started before this one. -/
structure OrderlyBelow (s : Scene) (bound : PassId) : Prop where
  asked : ∀ q ∈ s.waking.asked, q < bound → ∀ callers, Runs s.passes q callers →
    s.Comes callers q
  due : ∀ call ∈ s.waking.due, call.pass < bound → ∀ callers, Runs s.passes call.pass callers →
    call.pass ∈ s.focus.turning ∨ s.Comes callers call.pass

theorem Orderly.below {s : Scene} (h : s.Orderly) (bound : PassId) : s.OrderlyBelow bound :=
  ⟨fun q asked _ => h.asked q asked, fun call due _ => h.due call due⟩

theorem OrderlyBelow.mono {s : Scene} {bound bound' : PassId} (h : s.OrderlyBelow bound)
    (le : bound' ≤ bound) : s.OrderlyBelow bound' :=
  ⟨fun q asked lower => h.asked q asked (lower.trans_le le),
    fun call due lower => h.due call due (lower.trans_le le)⟩

/-- The call that waits, or the outermost pass if there is none, was seen to. -/
def SeesTo (s : Scene) : List CallId → Prop
  | [] => s.waking.again = true
  | call :: callers => s.Hears call callers

theorem SeesTo.comes {s : Scene} {callers : List CallId} (h : s.SeesTo callers) (q : PassId) :
    s.Comes callers q := by
  cases callers with
  | nil => exact .inr (.inl h)
  | cons call callers => exact .inr h

namespace Rouses
variable {s s' s'' : Scene}

theorem refl (s : Scene) : s.Rouses s :=
  ⟨rfl, rfl, id, fun _ => id, fun _ => .inl, fun _ => .inl⟩

theorem extends_to (h : s.Rouses s') : s.Extends s' where
  top q comes := by
    rcases comes with enters | again | outermost
    · exact .inl (h.focus ▸ enters)
    · exact .inr (.inl (h.again again))
    · exact .inr (.inr (h.focus ▸ outermost))
  crowded p crowded := h.passes ▸ crowded
  enters q enters := h.focus ▸ enters
  polls call polls := h.focus ▸ polls
  turning p turning := h.focus ▸ turning
  due := h.due

theorem trans (h : s.Rouses s') (h' : s'.Rouses s'') : s.Rouses s'' where
  passes := h'.passes.trans h.passes
  focus := h'.focus.trans h.focus
  again again := h'.again (h.again again)
  due call due := h'.due call (h.due call due)
  new_due call due := by
    rcases h'.new_due call due with old | ⟨callers, runs, comes⟩
    · refine (h.new_due call old).imp id ?_
      rintro ⟨callers, runs, comes⟩
      exact ⟨callers, runs, h'.extends_to.comes comes⟩
    · exact .inr ⟨callers, h.passes ▸ runs, comes⟩
  new_asked q asked := by
    rcases h'.new_asked q asked with old | ⟨callers, runs, comes⟩
    · refine (h.new_asked q old).imp id ?_
      rintro ⟨callers, runs, comes⟩
      exact ⟨callers, runs, h'.extends_to.comes comes⟩
    · exact .inr ⟨callers, h.passes ▸ runs, comes⟩

theorem orderly (h : s.Rouses s') (before : s.Orderly) : s'.Orderly where
  asked q asked callers runs := by
    rw [h.passes] at runs
    rcases h.new_asked q asked with old | ⟨others, runs', comes⟩
    · exact h.extends_to.comes (before.asked q old callers runs)
    · exact runs.unique runs' ▸ comes
  due call due callers runs := by
    rw [h.passes] at runs
    rcases h.new_due call due with old | ⟨others, runs', comes⟩
    · exact (before.due call old callers runs).imp (h.extends_to.turning _) h.extends_to.comes
    · exact .inr (runs.unique runs' ▸ comes)

theorem attentive (h : s.Rouses s') (before : s.Attentive) : s'.Attentive where
  toOrderly := h.orderly before.toOrderly
  heard call callers eager := h.extends_to.hears (before.heard call callers (h.passes ▸ eager))

end Rouses
end Scene

namespace World

def scene (w : World) (focus : Focus) : Scene := ⟨w.passes, w.waking, focus⟩

variable {focus : Focus}

theorem isCrowded_iff (w : World) (p : PassId) : w.isCrowded p = true ↔ Crowded w.passes p := by
  unfold isCrowded Crowded
  cases w.passes[p]? <;> simp

theorem extends_enqueue (w : World) (focus : Focus) (call : CallId) (asked : List PassId) :
    (w.scene focus).Extends
      ((w.setWaking { w.waking with due := w.waking.due ++ [call], asked }).scene focus) :=
  ⟨fun _ => id, fun _ => id, fun _ => id, fun _ => id, fun _ => id,
    fun _ due => List.mem_append_left _ due⟩

/-- To the passes further out it is nothing that a call becomes due, and that its pass asks. -/
theorem orderlyBelow_enqueue {w : World} {call : CallId} {bound : PassId}
    (h : (w.scene focus).OrderlyBelow bound) (below : call.pass < bound) :
    ((w.setWaking ((w.waking.enqueue [call]).ask call.pass)).scene focus).OrderlyBelow
      call.pass where
  asked q hq lower callers runs := by
    have old : q ∈ w.waking.asked := (List.mem_cons.mp hq).resolve_left lower.ne
    exact (extends_enqueue w focus call _).comes (h.asked q old (lower.trans below) callers runs)
  due other hc lower callers runs := by
    have old : other ∈ w.waking.due := (List.mem_append.mp hc).resolve_right fun same =>
      lower.ne (congrArg CallId.pass (List.mem_singleton.mp same))
    exact (h.due other old (lower.trans below) callers runs).imp_right
      (extends_enqueue w focus call _).comes

/-- A call becomes due, and perhaps its pass asks, which will be polled. -/
theorem rouses_enqueue {w : World} {call : CallId} {callers : List CallId} {asked : List PassId}
    {s : Scene}
    (rouses : ((w.setWaking { w.waking with due := w.waking.due ++ [call], asked }).scene
      focus).Rouses s)
    (asks : ∀ q ∈ asked, q ∈ w.waking.asked ∨ q = call.pass)
    (runs : Runs w.passes call.pass callers) (comes : s.Comes callers call.pass) :
    (w.scene focus).Rouses s where
  passes := rouses.passes
  focus := rouses.focus
  again := rouses.again
  due other due := rouses.due other (List.mem_append_left _ due)
  new_due other due := by
    rcases rouses.new_due other due with old | found
    · refine (List.mem_append.mp old).imp id fun new => ?_
      rw [List.mem_singleton.mp new]
      exact ⟨callers, runs, comes⟩
    · exact .inr found
  new_asked q hq := by
    rcases rouses.new_asked q hq with old | found
    · refine (asks q old).imp id ?_
      rintro rfl
      exact ⟨callers, runs, comes⟩
    · exact .inr found

/-- Rousing goes outwards, and relies only on what holds of the passes further out. -/
theorem rouse_rouses {w : World} {callers : List CallId} {bound : PassId}
    (attended : Attended w.passes) (descending : Descending w.passes)
    (inside : ∀ call rest, callers = call :: rest → Runs w.passes call.pass rest ∧
      call.pass < bound)
    (orderly : (w.scene focus).OrderlyBelow bound) :
    (w.scene focus).Rouses ((w.rouse callers).scene focus) ∧
      ((w.rouse callers).scene focus).SeesTo callers := by
  induction callers generalizing w bound with
  | nil => exact ⟨⟨rfl, rfl, fun _ => rfl, fun _ => id, fun _ => .inl, fun _ => .inl⟩, rfl⟩
  | cons call callers ih =>
    obtain ⟨runs, below⟩ := inside call callers rfl
    have outwards : ∀ next rest, callers = next :: rest → Runs w.passes next.pass rest ∧
        next.pass < call.pass := by
      rintro next rest rfl
      exact ⟨attended.runs runs, descending _ _ runs next List.mem_cons_self⟩
    unfold rouse
    dsimp only
    split
    · rename_i crowded
      split
      · rename_i is_due
        have is_due : call ∈ w.waking.due := by simpa [Waking.isDue] using is_due
        refine ⟨.refl _, ?_⟩
        rcases orderly.due call is_due below callers runs with turning | comes
        · exact .inr (.inl ⟨is_due, turning⟩)
        · exact .inr (.inr ⟨.inl is_due, comes⟩)
      · split
        · rename_i has_asked
          have has_asked : call.pass ∈ w.waking.asked := by
            simpa [Waking.hasAsked, Waking.enqueue] using has_asked
          have comes := (extends_enqueue w focus call w.waking.asked).comes
            (orderly.asked call.pass has_asked below callers runs)
          exact ⟨rouses_enqueue (.refl _) (fun _ => .inl) runs comes,
            .inr (.inr ⟨.inl (List.mem_append_right _ List.mem_cons_self), comes⟩)⟩
        · obtain ⟨rouses, seen⟩ :=
            ih (w := w.setWaking ((w.waking.enqueue [call]).ask call.pass)) attended descending
              outwards (orderlyBelow_enqueue orderly below)
          have is_due := rouses.due call (List.mem_append_right _ List.mem_cons_self)
          exact ⟨rouses_enqueue rouses (fun q hq => (List.mem_cons.mp hq).symm) runs
            (seen.comes _), .inr (.inr ⟨.inl is_due, seen.comes _⟩)⟩
    · rename_i alone
      obtain ⟨rouses, seen⟩ := ih attended descending outwards (orderly.mono below.le)
      refine ⟨rouses, .inr (.inr ⟨.inr fun crowded => alone ?_, seen.comes _⟩)⟩
      rw [rouses.passes] at crowded
      exact (isCrowded_iff w call.pass).mpr crowded

section
variable {w : World} (attended : Attended w.passes) (descending : Descending w.passes)
include attended descending

/-- A pass whose callers are roused will be polled. -/
theorem rouse_pass (orderly : (w.scene focus).Orderly) {p : PassId} {callers : List CallId}
    (runs : Runs w.passes p callers) :
    (w.scene focus).Rouses ((w.rouse callers).scene focus) ∧
      ((w.rouse callers).scene focus).SeesTo callers := by
  have inside : ∀ call rest, callers = call :: rest → Runs w.passes call.pass rest ∧
      call.pass < p := by
    rintro call rest rfl
    exact ⟨attended.runs runs, descending p _ runs call List.mem_cons_self⟩
  exact rouse_rouses attended descending inside (orderly.below p)

variable (sound : ∀ (p : PassId) (pass : Pass), w.passes[p]? = some pass → pass.Sound)
include sound

/-- A call that is woken will be polled. -/
theorem wake_rouses (orderly : (w.scene focus).Orderly) (call : CallId) :
    (w.scene focus).Rouses ((w.wake call).scene focus) ∧
      ∀ callers, Eager w.passes call callers → ((w.wake call).scene focus).Hears call callers := by
  -- a call that is not woken could not go on
  have unmoved : w.wake call = w → (∀ callers, ¬ Eager w.passes call callers) →
      (w.scene focus).Rouses ((w.wake call).scene focus) ∧
        ∀ callers, Eager w.passes call callers →
          ((w.wake call).scene focus).Hears call callers := by
    intro same none_eager
    rw [same]
    exact ⟨.refl _, fun callers eager => absurd eager (none_eager callers)⟩
  cases found : w.passes[call.pass]? with
  | none =>
    refine unmoved (by simp [wake, found]) ?_
    rintro callers ⟨pass, c, found', -⟩
    simp [found] at found'
  | some pass =>
    have same_call := call?_of_found found call.position
    cases at_position : pass.calls[call.position]? with
    | none =>
      refine unmoved (by simp [wake, found, same_call, at_position]) ?_
      rintro callers ⟨pass', c, found', -, -, at_position', -⟩
      rw [found, Option.some.injEq] at found'
      simp [← found', at_position] at at_position'
    | some c =>
      cases unfinished : c.status.isUnfinished with
      | false =>
        refine unmoved (by simp [wake, found, same_call, at_position, unfinished]) ?_
        rintro callers ⟨pass', c', found', -, -, at_position', eager⟩
        rw [found, Option.some.injEq] at found'
        rw [← found', at_position, Option.some.injEq] at at_position'
        rw [← at_position'] at eager
        simp [Status.isUnfinished_of_isEager eager] at unfinished
      | true =>
        have woken : w.wake call = w.rouse (call :: pass.lineage) := by
          simp [wake, found, same_call, at_position, unfinished]
        have running :=
          (sound _ pass found).running_of_unfinished (List.mem_of_getElem? at_position) unfinished
        have runs : Runs w.passes call.pass pass.lineage := ⟨pass, found, running, rfl⟩
        have inside : ∀ other rest, call :: pass.lineage = other :: rest →
            Runs w.passes other.pass rest ∧ other.pass < call.pass + 1 := by
          rintro _ _ ⟨⟩
          exact ⟨runs, Nat.lt_succ_self _⟩
        obtain ⟨rouses, seen⟩ := rouse_rouses attended descending inside (orderly.below _)
        rw [woken]
        exact ⟨rouses, fun callers eager => runs.unique eager.runs ▸ seen⟩

/-- Nobody is forgotten when a signal wakes those who wait for it. -/
theorem signal_rouses (orderly : (w.scene focus).Orderly) (s : Signal) :
    (w.scene focus).Rouses ((w.signal s).scene focus) := by
  have all : ∀ (calls : List CallId) (v : World), v.passes = w.passes →
      (v.scene focus).Orderly → (v.scene focus).Rouses ((calls.foldl wake v).scene focus) := by
    intro calls
    induction calls with
    | nil => exact fun v _ _ => .refl _
    | cons call calls ih =>
      intro v same orderly
      have woken := (wake_rouses (same ▸ attended) (same ▸ descending) (same ▸ sound) orderly
        call).1
      exact woken.trans (ih (v.wake call) ((passes_wake v call).trans same)
        (woken.orderly orderly))
  have dismissed : (w.scene focus).Rouses ((w.setWaking (w.waking.dismiss s)).scene focus) :=
    ⟨rfl, rfl, id, fun _ => id, fun _ => .inl, fun _ => .inl⟩
  exact dismissed.trans (all _ _ rfl (dismissed.orderly orderly))

end

/-- Nothing happened to who is to be polled, or a signal was given. -/
def Signals (w after : World) : Prop :=
  after.waking = w.waking ∨ ∃ (v : World) (s : Signal),
    after.waking = (v.signal s).waking ∧ v.passes = w.passes ∧ v.waking = w.waking

theorem signals_signal {w v : World} (passes : v.passes = w.passes) (waking : v.waking = w.waking)
    (s : Signal) : w.Signals (v.signal s) := .inr ⟨v, s, rfl, passes, waking⟩

theorem Signals.rouses {w after : World} (h : w.Signals after) (same : after.passes = w.passes)
    (attended : Attended w.passes) (descending : Descending w.passes)
    (sound : ∀ (p : PassId) (pass : Pass), w.passes[p]? = some pass → pass.Sound)
    (orderly : (w.scene focus).Orderly) : (w.scene focus).Rouses (after.scene focus) := by
  rcases h with waking | ⟨v, s, signalled, passes, waking⟩
  · have unmoved : after.scene focus = w.scene focus := by simp only [scene, same, waking]
    exact unmoved ▸ .refl _
  · have before : v.scene focus = w.scene focus := by simp only [scene, passes, waking]
    have result : after.scene focus = (v.signal s).scene focus := by
      simp only [scene, same, signalled, passes_signal, passes]
    rw [← before] at orderly ⊢
    rw [result]
    exact signal_rouses (passes ▸ attended) (passes ▸ descending) (passes ▸ sound) orderly s

theorem signals_cancelToken (w : World) (token : Token) : w.Signals (w.cancelToken token) := by
  unfold cancelToken
  split
  · exact .inl rfl
  · exact signals_signal rfl rfl _

theorem waking_release (w : World) (h : HandlerId) : (w.release h).waking = w.waking := by
  rw [release_eq]
  rfl

theorem waking_dropGuard (w : World) (guard : Guard) : (w.dropGuard guard).waking = w.waking := by
  obtain ⟨_ | d, key, generation⟩ := guard
  · rfl
  · unfold dropGuard releaseGuard
    dsimp only
    split <;> rfl

theorem waking_registerWeak (w : World) (d : DispatcherId) (handle : Option HandlerId) :
    (w.registerWeak d handle).1.waking = w.waking := by
  unfold registerWeak
  split
  · split <;> rfl
  · rfl

theorem waking_unregisterWeak (w : World) (d : DispatcherId) (handle : Option HandlerId) :
    (w.unregisterWeak d handle).1.waking = w.waking := by
  unfold unregisterWeak
  dsimp only
  split
  · rfl
  · split <;> rfl

theorem waking_reorder (w : World) (d : DispatcherId) (order : List (Key × Registration)) :
    (w.reorder d order).waking = w.waking := by
  unfold reorder
  split <;> rfl

theorem attempt_signals {w after : World} {action : Action} {answer : Answer}
    (h : w.attempt action = .ok (after, answer)) : w.Signals after := by
  cases action <;> simp only [attempt, bind, Except.bind, pure, Except.pure] at h
  all_goals (repeat' split at h)
  all_goals first
    | (cases h; done)
    | simp only [Except.ok.injEq, Prod.mk.injEq] at h
      obtain ⟨rfl, -⟩ := h
      first
        | exact .inl rfl
        | exact .inl (waking_release ..)
        | exact .inl (waking_registerWeak ..)
        | exact .inl (waking_unregisterWeak ..)
        | exact .inl (waking_dropGuard ..)
        | (rw [unsubscribe_eq]; exact .inl (waking_dropGuard ..))
        | exact signals_cancelToken ..
        | exact signals_signal rfl rfl _

theorem perform_signals (w : World) (action : Action) : w.Signals (w.perform action).1 := by
  unfold perform
  split
  · rename_i h
    exact attempt_signals h
  · exact .inl rfl

/-- What one step of a call does to who is to be polled: something is done at once, or a pass is
started that the call is to wait for. -/
inductive StepTaken (w : World) (call : CallId) (callers : List CallId) : World × Effect → Prop
  | acts {after : World} {effect : Effect} (passes : after.passes = w.passes)
      (signals : w.Signals after)
      (alone : ∀ q propagate, effect ≠ .goOn (.pass q propagate)) :
      StepTaken w call callers (after, effect)
  | starts {started : World} {inner : Pass} (propagate : Bool)
      (passes : started.passes = w.passes ++ [inner]) (waking : started.waking = w.waking)
      (fresh : inner.phase = .fresh) (no_calls : inner.calls = [])
      (lineage : inner.lineage = call :: callers) :
      StepTaken w call callers (started, .goOn (.pass w.passes.length propagate))

section
variable {w after : World} {call : CallId} {callers : List CallId}

theorem stepTaken_tell (passes : after.passes = w.passes) (signals : w.Signals after) (p : PassId)
    (i : Nat) (h : HandlerId) (note : Note) :
    StepTaken w call callers (after.tell p i h note, .goOn .ready) :=
  .acts passes signals (by simp)

theorem stepTaken_afterAction (passes : after.passes = w.passes) (signals : w.Signals after)
    (p : PassId) (i : Nat) (h : HandlerId) (action : Action) (propagate : Bool)
    (answer : Answer) :
    StepTaken w call callers (afterAction p i h action propagate (after, answer)) := by
  unfold afterAction
  split
  · rename_i error heq
    cases heq
    split
    · exact .acts passes signals (by simp)
    · exact stepTaken_tell passes signals ..
  · rename_i heq
    cases heq
    exact stepTaken_tell passes signals ..

end

theorem take_stepTaken (w : World) (p : PassId) (i : Nat) (pass : Pass) (h : HandlerId)
    (step : Step) : StepTaken w ⟨p, i⟩ pass.lineage (w.take p i pass h step) := by
  have same : w.Signals w := .inl rfl
  cases step with
  | say text => exact stepTaken_tell rfl same ..
  | linger times => cases times <;> exact .acts rfl same (by simp)
  | arrive gate expected =>
    exact .acts (passes_signal ..) (signals_signal rfl rfl _) (by simp)
  | failBelow bound =>
    simp only [take]
    split <;> exact .acts rfl same (by simp)
  | failFor sender =>
    simp only [take]
    split <;> exact .acts rfl same (by simp)
  | checkToken =>
    simp only [take]
    split <;> exact .acts rfl same (by simp)
  | cancelToken => exact .acts (passes_cancelToken ..) (signals_cancelToken ..) (by simp)
  | showToken => exact stepTaken_tell rfl same ..
  | act action propagate =>
    exact stepTaken_afterAction (passes_perform w action) (perform_signals w action) ..
  | raise summons propagate =>
    simp only [take]
    split
    · rename_i q started hs
      obtain ⟨d, token, -, h⟩ := summon_eq_ok hs
      cases h
      exact .starts propagate rfl rfl rfl rfl rfl
    · exact stepTaken_tell rfl same ..
  | _ => exact .acts rfl same (by simp)

end World
end Fanout
