import Fanout.Proofs.Tables

/-! Who keeps a handler alive. The strong references to a handler are those that its owner holds
and one for each call of it that is not over, and it is reclaimed in the step in which the last of
them goes. In the middle of a step some more references may be out; they are listed. -/
namespace Fanout

def Call.holds (h : HandlerId) (call : Call) : Nat :=
  if call.handler = h ∧ call.status.isUnfinished = true then 1 else 0

def Pass.holds (h : HandlerId) (pass : Pass) : Nat := (pass.calls.map (Call.holds h)).sum

theorem sum_map_set {α : Type} (f : α → Nat) {l : List α} {i : Nat} {a : α} (h : l[i]? = some a)
    (b : α) : ((l.set i b).map f).sum + f a = (l.map f).sum + f b := by
  induction l generalizing i with
  | nil => simp at h
  | cons x xs ih =>
    cases i with
    | zero =>
      simp only [List.getElem?_cons_zero, Option.some.injEq] at h
      subst h
      simp only [List.set_cons_zero, List.map_cons, List.sum_cons]
      omega
    | succ i =>
      have rest := ih (by simpa using h)
      simp only [List.set_cons_succ, List.map_cons, List.sum_cons]
      omega

namespace Pass

theorem holds_setCall {pass : Pass} {i : Nat} {call : Call}
    (at_position : pass.calls[i]? = some call) (status : Status) (h : HandlerId) :
    (pass.setCall i status).holds h + call.holds h =
      pass.holds h + Call.holds h { call with status } := by
  unfold Pass.holds setCall
  rw [World.modify_eq_set _ at_position]
  exact sum_map_set _ at_position _

theorem holds_setCall_of_unfinished {pass : Pass} {i : Nat} {call : Call}
    (at_position : pass.calls[i]? = some call) (unfinished : call.status.isUnfinished = true)
    {status : Status} (still : status.isUnfinished = true) (h : HandlerId) :
    (pass.setCall i status).holds h = pass.holds h := by
  have sum := holds_setCall at_position status h
  simp only [Call.holds, unfinished, still] at sum
  omega

theorem Sound.holds_returnPermit {pass : Pass} (sound : pass.Sound)
    (running : pass.phase = .running) (h : HandlerId) :
    pass.returnPermit.holds h = pass.holds h := by
  match hp : pass.permits with
  | none => rw [returnPermit_of_none hp]
  | some ⟨free, []⟩ => rw [returnPermit_of_nil hp]; rfl
  | some ⟨free, next :: others⟩ =>
    obtain ⟨call, hc, queued⟩ := (sound.queue running _ hp).queued next List.mem_cons_self
    rw [returnPermit_of_cons hp]
    have handed : ({ pass with permits := some ⟨free, others⟩ } : Pass).calls[next]? = some call :=
      hc
    exact holds_setCall_of_unfinished handed (by rw [queued]; rfl) rfl h

end Pass

namespace World

def holds (w : World) (h : HandlerId) : Nat := (w.passes.map (Pass.holds h)).sum

theorem holds_set {w w' : World} {p : PassId} {pass pass' : Pass}
    (found : w.passes[p]? = some pass) (passes : w'.passes = w.passes.set p pass')
    (h : HandlerId) : w'.holds h + pass.holds h = w.holds h + pass'.holds h := by
  unfold World.holds
  rw [passes]
  exact sum_map_set _ found _

theorem exists_of_call? {w : World} {p : PassId} {i : Nat} {call : Call}
    (h : w.call? p i = some call) :
    ∃ pass, w.passes[p]? = some pass ∧ pass.calls[i]? = some call := by
  cases found : w.passes[p]? with
  | none => simp [call?, found] at h
  | some pass => exact ⟨pass, rfl, by rwa [call?_of_found found] at h⟩

theorem holds_of_passes {w w' : World} (passes : w'.passes = w.passes) (h : HandlerId) :
    w'.holds h = w.holds h := by
  unfold World.holds
  rw [passes]

/-- The references to a handler are accounted for, with the extra ones that are out. -/
def BalancedAt (w : World) (extra : List HandlerId) (h : HandlerId) : Prop :=
  match w.handlers.find? h with
  | none => w.holds h = 0 ∧ extra.count h = 0 ∧ .reclaimed h ∉ w.history
  | some handler => handler.strong = handler.owned + w.holds h + extra.count h ∧
      (.reclaimed h ∈ w.history ↔ handler.strong = 0)

theorem balancedAt_iff {w : World} {extra : List HandlerId} {h : HandlerId} {handler : Handler}
    (found : w.handlers.find? h = some handler) : w.BalancedAt extra h ↔
      handler.strong = handler.owned + w.holds h + extra.count h ∧
        (.reclaimed h ∈ w.history ↔ handler.strong = 0) := by
  unfold BalancedAt
  rw [found]

def Balanced (w : World) (extra : List HandlerId) : Prop := ∀ h, w.BalancedAt extra h

namespace Balanced
variable {w w' : World} {extra extra' : List HandlerId}

/-- Handlers may change in what does not count, and calls may hold what was out. -/
theorem shift (b : w.Balanced extra) (handlers : ∀ h, Option.Rel
      (fun old new => new.strong = old.strong ∧ new.owned = old.owned)
      (w.handlers.find? h) (w'.handlers.find? h))
    (holds : ∀ h, w'.holds h + extra'.count h = w.holds h + extra.count h)
    (history : ∀ h, .reclaimed h ∈ w'.history ↔ .reclaimed h ∈ w.history) :
    w'.Balanced extra' := by
  intro h
  have at_h := b h
  have same := holds h
  have rel := handlers h
  unfold BalancedAt at at_h ⊢
  rw [history]
  generalize w.handlers.find? h = old at rel at_h
  generalize w'.handlers.find? h = new at rel ⊢
  cases rel with
  | none => exact ⟨by omega, by omega, at_h.2.2⟩
  | some same_counts =>
    dsimp only at at_h ⊢
    rw [same_counts.1, same_counts.2]
    exact ⟨by omega, at_h.2⟩

theorem same_handlers (handlers : w'.handlers = w.handlers) (h : HandlerId) : Option.Rel
    (fun old new : Handler => new.strong = old.strong ∧ new.owned = old.owned)
    (w.handlers.find? h) (w'.handlers.find? h) := by
  rw [handlers]
  cases w.handlers.find? h with
  | none => exact .none
  | some handler => exact .some ⟨rfl, rfl⟩

/-- Only the passes change, and hold what was out before. -/
theorem shift_passes (b : w.Balanced extra) (handlers : w'.handlers = w.handlers)
    (history : w'.history = w.history)
    (holds : ∀ h, w'.holds h + extra'.count h = w.holds h + extra.count h) :
    w'.Balanced extra' :=
  b.shift (same_handlers handlers) holds fun h => by rw [history]

theorem of_eq (b : w.Balanced extra) (handlers : w'.handlers = w.handlers)
    (history : w'.history = w.history) (passes : w'.passes = w.passes) : w'.Balanced extra :=
  b.shift_passes handlers history fun h => by rw [holds_of_passes passes]

theorem perm (b : w.Balanced extra) (h : extra'.Perm extra) : w.Balanced extra' :=
  b.shift_passes rfl rfl fun x => by rw [h.count_eq]

theorem record (b : w.Balanced extra) {event : Event} (other : ∀ h, event ≠ .reclaimed h) :
    (w.record event).Balanced extra :=
  b.shift (same_handlers rfl) (fun _ => rfl) fun h => by
    simp [World.record, (other h).symm]

theorem modifyHandler (b : w.Balanced extra) (h : HandlerId) {f : Handler → Handler}
    (same : ∀ x, (f x).strong = x.strong ∧ (f x).owned = x.owned) :
    (w.modifyHandler h f).Balanced extra := by
  refine b.shift (fun h' => ?_) (fun _ => rfl) fun _ => Iff.rfl
  simp only [World.modifyHandler, Roster.find?_modify]
  split
  · cases w.handlers.find? h' with
    | none => exact .none
    | some handler => exact .some (same handler)
  · cases w.handlers.find? h' with
    | none => exact .none
    | some handler => exact .some ⟨rfl, rfl⟩

/-- Nothing is said here about the handlers that are not touched. -/
theorem update (b : w.Balanced extra) {h : HandlerId}
    (others : ∀ h', h ≠ h' → w'.handlers.find? h' = w.handlers.find? h' ∧
      extra'.count h' = extra.count h' ∧ (.reclaimed h' ∈ w'.history ↔ .reclaimed h' ∈ w.history))
    (passes : w'.passes = w.passes) (this : w'.BalancedAt extra' h) : w'.Balanced extra' := by
  intro h'
  by_cases same : h = h'
  · exact same ▸ this
  · obtain ⟨handlers, counts, history⟩ := others h' same
    have at_h := b h'
    unfold BalancedAt at at_h ⊢
    rw [handlers, counts, history, holds_of_passes passes]
    exact at_h

theorem known (b : w.Balanced extra) {h : HandlerId} (out : 0 < extra.count h ∨ 0 < w.holds h) :
    ∃ handler, w.handlers.find? h = some handler ∧
      handler.strong = handler.owned + w.holds h + extra.count h ∧
      (.reclaimed h ∈ w.history ↔ handler.strong = 0) := by
  have at_h := b h
  unfold BalancedAt at at_h
  cases found : w.handlers.find? h with
  | none =>
    rw [found] at at_h
    dsimp only at at_h
    omega
  | some handler =>
    rw [found] at at_h
    exact ⟨handler, rfl, at_h⟩

theorem retain (b : w.Balanced extra) {h : HandlerId} (alive : w.alive h = true) :
    (w.retain h).Balanced (h :: extra) := by
  refine b.update (h := h) (fun h' other => ⟨?_, ?_, Iff.rfl⟩) rfl ?_
  · simp [World.retain, World.modifyHandler, Roster.find?_modify, other]
  · exact List.count_cons_of_ne other
  · cases found : w.handlers.find? h with
    | none => simp [World.alive, found] at alive
    | some handler =>
      have retained : (w.retain h).handlers.find? h =
          some { handler with strong := handler.strong + 1 } := by
        simp [World.retain, World.modifyHandler, Roster.find?_modify, found]
      have same : (w.retain h).holds h = w.holds h := rfl
      obtain ⟨strong, reclaimed⟩ := (balancedAt_iff found).mp (b h)
      have not_gone : handler.strong ≠ 0 := by
        simp only [World.alive, found, Handler.alive, decide_eq_true_eq] at alive
        omega
      refine (balancedAt_iff retained).mpr ⟨?_, ?_⟩
      · rw [List.count_cons_self, same]
        dsimp only
        omega
      · show .reclaimed h ∈ w.history ↔ _
        rw [reclaimed]
        simp [not_gone]

theorem release {h : HandlerId} (b : w.Balanced (h :: extra)) : (w.release h).Balanced extra := by
  obtain ⟨handler, found, strong, reclaimed⟩ := b.known (h := h) (.inl (by simp))
  rw [List.count_cons_self] at strong
  have alive : w.alive h = true := by
    simp only [World.alive, found, Handler.alive, decide_eq_true_eq]
    omega
  have let_go : (w.letGo h).handlers.find? h =
      some { handler with strong := handler.strong - 1 } := by
    simp [letGo, World.modifyHandler, Roster.find?_modify, found]
  have alive_after : (w.letGo h).alive h = decide (0 < handler.strong - 1) := by
    simp [World.alive, let_go, Handler.alive]
  have same : (w.release h).holds h = w.holds h := holds_of_passes (passes_release w h) h
  have released : (w.release h).handlers = (w.letGo h).handlers := by rw [release_eq]
  refine b.update (h := h) (fun h' other => ⟨?_, ?_, ?_⟩) (passes_release w h) ?_
  · rw [released]
    simp [letGo, World.modifyHandler, Roster.find?_modify, other]
  · exact (List.count_cons_of_ne other).symm
  · rw [release_eq]
    dsimp only
    split
    · simp [Ne.symm other]
    · exact Iff.rfl
  · refine (balancedAt_iff (released ▸ let_go)).mpr ⟨?_, ?_⟩
    · rw [same]
      dsimp only
      omega
    · rw [release_eq, alive, alive_after]
      by_cases last : handler.strong = 1
      · simp [last]
      · have more : 0 < handler.strong - 1 := by omega
        have not_yet : handler.strong ≠ 0 := by omega
        simp only [more, decide_true, Bool.not_true, Bool.and_false, Bool.false_eq_true, if_false,
          reclaimed]
        omega

theorem retainAll (b : w.Balanced extra) (hs : List HandlerId)
    (alive : ∀ h ∈ hs, w.alive h = true) : (w.retainAll hs).Balanced (hs ++ extra) := by
  induction hs generalizing w extra with
  | nil => exact b
  | cons h hs ih =>
    have first := alive h List.mem_cons_self
    have others : ∀ h' ∈ hs, (w.retain h).alive h' = true := by
      rw [alive_retain first]
      exact fun h' hh => alive h' (List.mem_cons_of_mem _ hh)
    exact (ih (b.retain first) others).perm List.perm_middle.symm

theorem releaseAll {hs : List HandlerId} (b : w.Balanced (hs ++ extra)) :
    (w.releaseAll hs).Balanced extra := by
  induction hs generalizing w with
  | nil => exact b
  | cons h hs ih => exact ih b.release

section
variable {p : PassId} {pass : Pass} (found : w.passes[p]? = some pass)
include found

theorem setPass (b : w.Balanced extra) (handlers : w'.handlers = w.handlers)
    (history : w'.history = w.history) {pass' : Pass} (passes : w'.passes = w.passes.set p pass')
    (same : ∀ h, pass'.holds h = pass.holds h) : w'.Balanced extra :=
  b.shift_passes handlers history fun h => by
    have sum := holds_set found passes h
    have := same h
    omega

variable {i : Nat} {call : Call} (at_position : pass.calls[i]? = some call)
include at_position

theorem finish (b : w.Balanced extra) (unfinished : call.status.isUnfinished = true)
    {status : Status} (finished : status.isUnfinished = false) :
    (w.setStatus p i status).Balanced (call.handler :: extra) :=
  b.shift_passes rfl rfl fun h => by
    have sum := holds_set found (passes_setStatus found i status) h
    have sum' := Pass.holds_setCall at_position status h
    simp only [Call.holds, unfinished, finished, and_true, Bool.false_eq_true, and_false,
      if_false] at sum'
    by_cases same : call.handler = h
    · subst same
      rw [List.count_cons_self]
      simp only [if_true] at sum'
      omega
    · rw [List.count_cons_of_ne same]
      simp only [same, if_false] at sum'
      omega

theorem goOn (b : w.Balanced extra) (unfinished : call.status.isUnfinished = true)
    {status : Status} (still : status.isUnfinished = true) :
    (w.setStatus p i status).Balanced extra :=
  b.setPass found rfl rfl (passes_setStatus found i status)
    (Pass.holds_setCall_of_unfinished at_position unfinished still)

end

theorem returnPermit (b : w.Balanced extra) {p : PassId} {pass : Pass}
    (found : w.passes[p]? = some pass) (sound : pass.Sound) (running : pass.phase = .running) :
    (w.returnPermit p).Balanced extra := by
  have handlers : (w.returnPermit p).handlers = w.handlers ∧
      (w.returnPermit p).history = w.history := by
    unfold World.returnPermit
    split
    · split
      · rename_i left next _
        obtain ⟨waking, woken⟩ :=
          wake_eq ((w.setPermits p left).setStatus p next .granted) ⟨p, next⟩
        rw [woken]
        exact ⟨rfl, rfl⟩
      · exact ⟨rfl, rfl⟩
    · exact ⟨rfl, rfl⟩
  exact b.setPass found handlers.1 handlers.2 (passes_returnPermit found)
    (sound.holds_returnPermit running)

theorem retire (b : w.Balanced extra) {p : PassId} {i : Nat} {pass : Pass} {call : Call}
    (call_of : w.IsCall p i pass call) (sound : pass.Sound)
    (begun : call.status.isRunning = true) (error : Option CallError) :
    (w.retire p i call.handler error).Balanced extra := by
  have unfinished := Status.isUnfinished_of_isRunning begun
  have ended : (Status.finished error).isUnfinished = false := rfl
  have released := (b.finish call_of.found call_of.at_position unfinished ended).release
  have here : ((w.setStatus p i (.finished error)).release call.handler).passes[p]? =
      some (pass.setCall i (.finished error)) := by
    rw [passes_release, passes_setStatus call_of.found]
    exact getElem?_set_of_some _ call_of.found
  have still : (pass.setCall i (.finished error)).Sound :=
    sound.finish call_of.running call_of.at_position begun error
  exact released.returnPermit here still call_of.running

theorem cutCall (b : w.Balanced extra) (p : PassId) (i : Nat) (h : HandlerId) :
    (w.cutCall p i h).Balanced extra :=
  record (w := w.setTally w.tally.cutOne) (b.of_eq rfl rfl rfl) (by simp)

theorem abandonCall (b : w.Balanced extra) (p : PassId) (i : Nat) :
    (w.abandonCall p i).Balanced extra := by
  unfold World.abandonCall
  split
  · rename_i call hc
    obtain ⟨pass, found, at_position⟩ := exists_of_call? hc
    split
    · rename_i begun
      have unfinished := Status.isUnfinished_of_isRunning begun
      exact ((b.cutCall p i call.handler).finish (w := w.cutCall p i call.handler) found at_position
        unfinished rfl).release
    · split
      · rename_i unfinished
        exact (b.finish found at_position unfinished rfl).release
      · exact b
  · exact b

theorem close (b : w.Balanced extra) (p : PassId) (ending : Ending) :
    (w.close p ending).Balanced extra := by
  cases found : w.passes[p]? with
  | none =>
    have same : w.close p ending = w := by simp [World.close, found]
    exact same.symm ▸ b
  | some pass =>
    rw [close_eq found]
    refine record ?_ (by simp)
    exact b.setPass found rfl rfl (modify_eq_set _ found) fun _ => rfl

theorem abandonPass (b : w.Balanced extra) (p : PassId) (ending : Ending) :
    (w.abandonPass p ending).Balanced extra := by
  have all : ∀ (is : List Nat) (v : World), v.Balanced extra →
      (is.foldl (fun w i => w.abandonCall p i) v).Balanced extra := by
    intro is
    induction is with
    | nil => exact fun v bv => bv
    | cons i is ih => exact fun v bv => ih _ (bv.abandonCall p i)
  unfold World.abandonPass
  split
  · split
    · exact (all _ w b).close p ending
    · exact b
  · exact b

theorem beginCall (b : w.Balanced extra) {p : PassId} {i : Nat} {pass : Pass} {call : Call}
    (call_of : w.IsCall p i pass call) {admitted : World}
    (admits : w.Admits p pass call admitted) :
    (admitted.beginCall p i pass call).Balanced extra := by
  obtain ⟨permits, -, -, passes⟩ := admits.pass call_of.found
  have here : admitted.passes[p]? = some { pass with permits } :=
    passes ▸ getElem?_set_of_some _ call_of.found
  have admitted_balanced : admitted.Balanced extra := by
    cases admits with
    | taking idle limited free =>
      exact b.setPass call_of.found rfl rfl (passes_setPermits call_of.found _) fun _ => rfl
    | _ => exact b
  unfold World.beginCall
  split
  · refine record ?_ (by simp)
    have more : (admitted.modifyHandler call.handler fun x =>
        { x with begun := x.begun + 1 }).Balanced extra :=
      admitted_balanced.modifyHandler call.handler fun _ => ⟨rfl, rfl⟩
    have counted : (admitted.countCall call.handler).Balanced extra := more.of_eq rfl rfl rfl
    exact goOn (w := admitted.countCall call.handler) here call_of.at_position counted
      admits.unfinished rfl
  · exact admitted_balanced

/-- A new handler has one reference: its owner's. -/
theorem createHandler (b : w.Balanced extra) {h : HandlerId} (blueprint : Nat) (wish : Option Nat)
    (vacant : w.handlers.find? h = none) :
    (w.createHandler h blueprint wish).Balanced extra := by
  have unknown : w.holds h = 0 ∧ extra.count h = 0 ∧ .reclaimed h ∉ w.history := by
    have at_h := b h
    unfold BalancedAt at at_h
    rwa [vacant] at at_h
  refine b.update (h := h) (fun h' other => ⟨?_, rfl, Iff.rfl⟩) rfl ?_
  · simp [World.createHandler, Roster.find?_put, other]
  · have made : (w.createHandler h blueprint wish).handlers.find? h = some (Handler.ofBlueprint h
        (w.addressFor wish) (w.blueprints.getD blueprint {})) := by
      simp [World.createHandler, Roster.find?_put]
    refine (balancedAt_iff made).mpr ⟨?_, ?_⟩
    · show 1 = 1 + w.holds h + extra.count h
      omega
    · exact iff_of_false unknown.2.2 Nat.one_ne_zero

/-- The owner of a handler takes one more reference to it. -/
theorem clone (b : w.Balanced extra) {h : HandlerId} {handler : Handler}
    (found : w.handlers.find? h = some handler) (owned : handler.owned ≠ 0) :
    ((w.modifyHandler h fun x => { x with owned := x.owned + 1 }).retain h).Balanced extra := by
  obtain ⟨strong, reclaimed⟩ := (balancedAt_iff found).mp (b h)
  refine b.update (h := h) (fun h' other => ⟨?_, rfl, Iff.rfl⟩) rfl ?_
  · simp [World.retain, World.modifyHandler, Roster.find?_modify, other]
  · have more :
        ((w.modifyHandler h fun x => { x with owned := x.owned + 1 }).retain h).handlers.find? h =
          some { handler with owned := handler.owned + 1, strong := handler.strong + 1 } := by
      simp [World.retain, World.modifyHandler, Roster.find?_modify, found]
    refine (balancedAt_iff more).mpr ⟨?_, ?_⟩
    · show handler.strong + 1 = handler.owned + 1 + w.holds h + extra.count h
      omega
    · refine reclaimed.trans (iff_of_false ?_ (Nat.succ_ne_zero _))
      omega

/-- The owner of a handler gives up a reference to it, which is then let go. -/
theorem drop (b : w.Balanced extra) {h : HandlerId} {handler : Handler}
    (found : w.handlers.find? h = some handler) (owned : handler.owned ≠ 0) :
    ((w.modifyHandler h fun x => { x with owned := x.owned - 1 }).release h).Balanced extra := by
  obtain ⟨strong, reclaimed⟩ := (balancedAt_iff found).mp (b h)
  refine Balanced.release (b.update (h := h) (fun h' other => ⟨?_, ?_, Iff.rfl⟩) rfl ?_)
  · simp [World.modifyHandler, Roster.find?_modify, other]
  · exact List.count_cons_of_ne other
  · have fewer : (w.modifyHandler h fun x => { x with owned := x.owned - 1 }).handlers.find? h
        = some { handler with owned := handler.owned - 1 } := by
      simp [World.modifyHandler, Roster.find?_modify, found]
    refine (balancedAt_iff fewer).mpr ⟨?_, reclaimed⟩
    show handler.strong = handler.owned - 1 + w.holds h + (h :: extra).count h
    rw [List.count_cons_self]
    omega

end Balanced

theorem Deed.balanced {w w' : World} {extra : List HandlerId} (h : Deed w w')
    (b : w.Balanced extra) : w'.Balanced extra := by
  have told : ∀ (event : Event) (d : DispatcherId) (registry : Registry),
      (∀ h, event ≠ .reclaimed h) → ((w.setRegistry d registry).record event).Balanced extra :=
    fun event d registry other =>
      Balanced.record (w := w.setRegistry d registry) (b.of_eq rfl rfl rfl) other
  cases h with
  | quiet tokens cancelled openGates arrivals waking => exact b.of_eq rfl rfl rfl
  | tell p i h note => exact b.record (by simp)
  | createDispatcher settings vacant => exact b.of_eq rfl rfl rfl
  | dropDispatcher name => exact b.of_eq rfl rfl rfl
  | createHandler blueprint wish vacant => exact b.createHandler blueprint wish vacant
  | clone found owned => exact b.clone found owned
  | drop found owned => exact b.drop found owned
  | forget h => exact b.modifyHandler h fun _ => ⟨rfl, rfl⟩
  | rename h name => exact b.modifyHandler h fun _ => ⟨rfl, rfl⟩
  | register named found held => exact told _ _ _ (by simp)
  | subscribe named found owned vacant => exact (told _ _ _ (by simp)).of_eq rfl rfl rfl
  | unregister named found held => exact told _ _ _ (by simp)
  | unregisterEmpty d =>
    rw [setRegistry_remove_nowhere]
    exact b.of_eq rfl rfl rfl
  | @dropGuard name guard found =>
    obtain ⟨_ | d, key, generation⟩ := guard
    · exact b.of_eq rfl rfl rfl
    · cases kept : w.keeps d with
      | true =>
        rw [dropGuard_kept kept]
        exact (told _ _ _ (by simp)).of_eq rfl rfl rfl
      | false =>
        rw [dropGuard_gone kept]
        exact (b.record (by simp)).of_eq rfl rfl rfl
  | purge named => exact told _ _ _ (by simp)
  | arrange perm => exact b.of_eq rfl rfl rfl

theorem Change.balanced {w w' : World} {extra : List HandlerId} (h : Change w w')
    (recorded : w.Recorded) (b : w.Balanced extra) : w'.Balanced extra := by
  cases h with
  | deed deed => exact deed.balanced b
  | @start d named token sender args lineage caller =>
    refine b.shift_passes rfl rfl fun h => ?_
    have same : (w.start d token sender args lineage).2.holds h = w.holds h := by
      simp [World.holds, World.start, Pass.holds]
    rw [same]
  | @queue p i pass call permits call_of idle limited short =>
    have first : (w.setPermits p (permits.enqueue i)).Balanced extra :=
      b.setPass call_of.found rfl rfl
      (passes_setPermits call_of.found (permits.enqueue i)) fun _ => rfl
    have here : (w.setPermits p (permits.enqueue i)).passes[p]? = some _ :=
      passes_setPermits call_of.found (permits.enqueue i) ▸ getElem?_set_of_some _ call_of.found
    exact first.goOn here call_of.at_position (by rw [idle]; rfl) rfl
  | begin call_of admits => exact b.beginCall call_of admits
  | proceed call_of begun after rest waits =>
    exact b.goOn call_of.found call_of.at_position (by rw [begun]; rfl) rfl
  | @returnCall p i pass call call_of begun error =>
    have returned : ((w.setTally w.tally.returnedOne).record
        (.returned p i call.handler error)).Balanced extra :=
      Balanced.record (w := w.setTally w.tally.returnedOne) (b.of_eq rfl rfl rfl) (by simp)
    exact returned.retire ⟨call_of.found, call_of.running, call_of.at_position⟩
      (recorded.sound p pass call_of.found) begun error
  | @catchPanic p i pass call call_of begun isolated payload =>
    have caught : ((w.cutCall p i call.handler).record
        (.caught p i pass.dispatcher call.name payload.info)).Balanced extra :=
      (b.cutCall p i call.handler).record (by simp)
    exact caught.retire ⟨call_of.found, call_of.running, call_of.at_position⟩
      (recorded.sound p pass call_of.found) begun _
  | complete found running finished => exact b.close _ _
  | giveUp found isOpen incomplete unisolated => exact b.abandonPass _ _

theorem readNames_forall₂ {w : World} {hs : List HandlerId} {names : List String}
    (known : ∀ h ∈ hs, ∃ handler, w.handlers.find? h = some handler)
    (read : w.readNames hs = .ok names) :
    List.Forall₂ (fun h name => ∃ handler, w.handlers.find? h = some handler ∧
      handler.naming.read = .ok name) hs names := by
  induction hs generalizing names with
  | nil =>
    simp only [readNames, Except.ok.injEq] at read
    exact read ▸ .nil
  | cons h hs ih =>
    obtain ⟨handler, found⟩ := known h List.mem_cons_self
    have others : ∀ h' ∈ hs, ∃ handler, w.handlers.find? h' = some handler :=
      fun h' hh => known h' (List.mem_cons_of_mem _ hh)
    cases name : handler.naming.read with
    | error payload => simp [readNames, found, name] at read
    | ok name' =>
      cases rest : w.readNames hs with
      | error payload => simp [readNames, found, name, rest, Except.map] at read
      | ok names' =>
        simp only [readNames, found, name, rest, Except.map, Except.ok.injEq] at read
        exact read ▸ .cons ⟨handler, found, name⟩ (ih others rest)

theorem known_of_alive {w : World} {h : HandlerId} (alive : w.alive h = true) :
    ∃ handler, w.handlers.find? h = some handler := by
  cases found : w.handlers.find? h with
  | none => simp [World.alive, found] at alive
  | some handler => exact ⟨handler, rfl⟩

theorem balanced_survey {w : World} {extra : List HandlerId} (b : w.Balanced extra) (p : PassId)
    (d : DispatcherId) : (w.survey p d).Balanced ((w.snapshotOf d).live ++ extra) := by
  have retained := b.retainAll (w.snapshotOf d).live fun h => alive_of_mem_live
  unfold survey sweep
  dsimp only
  split
  · exact retained.record (by simp)
  · refine Balanced.record ?_ (by simp)
    refine Balanced.record ?_ (by simp)
    exact retained.of_eq rfl rfl rfl

theorem holds_firstCalls {live : List HandlerId} {names : List String}
    (same : live.length = names.length) (h : HandlerId) :
    ((firstCalls live names).map (Call.holds h)).sum = live.count h := by
  induction live generalizing names with
  | nil => rfl
  | cons x live ih =>
    cases names with
    | nil => simp at same
    | cons name names =>
      have rest := @ih names (by simpa using same)
      simp only [firstCalls, List.zipWith_cons_cons, List.map_cons, List.sum_cons] at rest ⊢
      rw [rest, List.count_cons]
      by_cases hx : x = h
      · subst hx
        simp [Call.holds, Status.isUnfinished, Nat.add_comm]
      · simp [Call.holds, hx]

/-- Entering a pass hands the references that were out to its calls, or gives them back. -/
theorem Balanced.enterPass {w : World} {live extra : List HandlerId}
    (b : w.Balanced (live ++ extra)) {p : PassId} {pass : Pass}
    (found : w.passes[p]? = some pass) (no_calls : pass.calls = []) (d : DispatcherId) :
    (w.enterPass p d live).Balanced extra := by
  unfold World.enterPass
  split
  · exact b.releaseAll.close p _
  · rename_i names read
    have known : ∀ h ∈ live, ∃ handler, w.handlers.find? h = some handler := by
      intro h hh
      obtain ⟨handler, handler_found, -⟩ :=
        b.known (.inl (List.count_pos_iff.mpr (List.mem_append_left extra hh)))
      exact ⟨handler, handler_found⟩
    have names_length := (readNames_forall₂ known read).length_eq
    refine b.shift_passes rfl rfl fun h => ?_
    have sum := holds_set found (passes_setCalls found (firstCalls live names)
      (w.settings d).permits (List.range (firstCalls live names).length)) h
    have before : pass.holds h = 0 := by simp [Pass.holds, no_calls]
    have after := holds_firstCalls names_length h
    unfold Pass.holds at sum before
    rw [before, after, Nat.add_zero] at sum
    rw [List.count_append, ← Nat.add_assoc, ← sum]
    rfl

theorem balanced_openPass {w : World} {extra : List HandlerId} (recorded : w.Recorded)
    (b : w.Balanced extra) {p : PassId} {pass : Pass} (found : w.passes[p]? = some pass)
    (fresh : pass.phase = .fresh) : (w.openPass p pass).1.Balanced extra := by
  have here : (w.survey p pass.dispatcher).passes[p]? = some pass := by
    rw [passes_survey]
    exact found
  rw [openPass_fst]
  exact (balanced_survey b p pass.dispatcher).enterPass here
    ((recorded.sound p pass found).fresh_empty fresh) _

theorem Progress.balanced {w w' : World} {extra : List HandlerId} (h : Progress w w')
    (recorded : w.Recorded) (b : w.Balanced extra) : w'.Balanced extra := by
  cases h with
  | change change => exact change.balanced recorded b
  | opening found fresh => exact balanced_openPass recorded b found fresh

theorem Reached.balanced {w : World} (h : w.Reached) : w.Balanced [] := by
  refine Reached.induction (P := fun w => w.Balanced []) ?_ ?_ h
  · intro arity blueprints h
    exact ⟨rfl, rfl, by simp⟩
  · exact fun w w' reached ih progress => progress.balanced reached.recorded ih

end World
end Fanout
