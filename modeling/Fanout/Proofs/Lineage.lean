import Fanout.Proofs.Ledger

/-! Who waits for whom. A call waits only for a pass that was started by it, and a pass is started
after the passes of all calls that wait for it, so that waiting goes one way. -/
namespace Fanout

namespace Pass

/-- The call at the position waits for the other pass. -/
def Awaits (pass : Pass) (i : Nat) (q : PassId) : Prop :=
  ∃ call number propagate rest, pass.calls[i]? = some call ∧
    call.status = .running number (.pass q propagate) rest

variable {pass pass' : Pass} {i j : Nat} {p q : PassId}

theorem Awaits.of_setCall {status : Status} (h : (pass.setCall i status).Awaits j q) :
    pass.Awaits j q ∨
      i = j ∧ ∃ number propagate rest, status = .running number (.pass q propagate) rest := by
  obtain ⟨call, number, propagate, rest, hc, hs⟩ := h
  rw [getElem?_setCall] at hc
  split at hc
  · obtain ⟨old, -, rfl⟩ := Option.map_eq_some_iff.mp hc
    exact .inr ⟨‹_›, number, propagate, rest, hs⟩
  · exact .inl ⟨call, number, propagate, rest, hc, hs⟩

theorem Awaits.of_returnPermit (h : pass.returnPermit.Awaits j q) : pass.Awaits j q := by
  match hp : pass.permits with
  | none => rwa [returnPermit_of_none hp] at h
  | some ⟨free, []⟩ => rwa [returnPermit_of_nil hp] at h
  | some ⟨free, next :: others⟩ =>
    rw [returnPermit_of_cons hp] at h
    rcases h.of_setCall with before | ⟨-, number, propagate, rest, hs⟩
    · exact before
    · cases hs

theorem Awaits.of_retire {error : Option CallError} (h : (pass.retire i error).Awaits j q) :
    pass.Awaits j q := by
  rcases h.of_returnPermit.of_setCall with before | ⟨-, number, propagate, rest, hs⟩
  · exact before
  · cases hs

variable {opens : Prop} {inner : Nat → PassId → Prop} {mark : Option Event}

theorem Becomes.awaits (becomes : pass.Becomes p opens inner mark pass') (h : pass'.Awaits j q) :
    pass.Awaits j q ∨ inner j q := by
  cases becomes with
  | queue running at_position idle limited short =>
    rcases h.of_setCall with before | ⟨-, number, propagate, rest, hs⟩
    · exact .inl before
    · cases hs
  | begin running at_position admits number script cancelled =>
    rcases h.of_setCall with before | ⟨-, number, propagate, rest, hs⟩
    · exact .inl before
    · cases hs
  | takePermit running member admits => exact .inl h
  | proceed running at_position begun after rest waits =>
    rcases h.of_setCall with before | ⟨rfl, number, propagate, rest, hs⟩
    · exact .inl before
    · simp only [Status.running.injEq] at hs
      exact .inr (waits q propagate hs.2.1)
  | returnCall running at_position begun error => exact .inl h.of_retire
  | catchPanic running at_position begun payload => exact .inl h.of_retire
  | complete running finished => exact .inl h
  | giveUp isOpen incomplete =>
    obtain ⟨call, number, propagate, rest, hc, hs⟩ := h
    obtain ⟨old, -, rfl⟩ := List.mem_map.mp (List.mem_of_getElem? hc)
    have still := old.abandon_not_running
    rw [hs] at still
    cases still
  | opened allowed fresh live names settings =>
    obtain ⟨call, number, propagate, rest, hc, hs⟩ := h
    obtain ⟨handler, name, -, -, rfl⟩ := List.getElem?_zipWith_eq_some.mp hc
    cases hs
  | refused allowed fresh payload => exact .inl h

theorem returnPermit_same (pass : Pass) : pass.returnPermit.lineage = pass.lineage ∧
    pass.returnPermit.dispatcher = pass.dispatcher ∧ pass.returnPermit.phase = pass.phase := by
  match hp : pass.permits with
  | none => rw [returnPermit_of_none hp]; exact ⟨rfl, rfl, rfl⟩
  | some ⟨free, []⟩ => rw [returnPermit_of_nil hp]; exact ⟨rfl, rfl, rfl⟩
  | some ⟨free, next :: others⟩ => rw [returnPermit_of_cons hp]; exact ⟨rfl, rfl, rfl⟩

theorem retire_same (pass : Pass) (i : Nat) (error : Option CallError) :
    (pass.retire i error).lineage = pass.lineage ∧
      (pass.retire i error).dispatcher = pass.dispatcher ∧
        (pass.retire i error).phase = pass.phase := returnPermit_same _

/-- A pass that is closed has no more turns. -/
theorem Becomes.was_open (becomes : pass.Becomes p opens inner mark pass') :
    pass.phase.isOpen = true := by
  cases becomes <;> simp_all [Phase.isOpen]

theorem Becomes.same (becomes : pass.Becomes p opens inner mark pass') :
    pass'.lineage = pass.lineage ∧ pass'.dispatcher = pass.dispatcher := by
  cases becomes with
  | returnCall running at_position begun error => exact ⟨(retire_same ..).1, (retire_same ..).2.1⟩
  | catchPanic running at_position begun payload =>
    exact ⟨(retire_same ..).1, (retire_same ..).2.1⟩
  | _ => exact ⟨rfl, rfl⟩

end Pass

namespace World

theorem PassStep.keeps {opens : PassId → Prop} {w w' : World} (step : PassStep opens w w')
    {p : PassId} {pass : Pass} (found : w.passes[p]? = some pass) :
    ∃ pass', w'.passes[p]? = some pass' ∧ pass'.lineage = pass.lineage ∧
      pass'.dispatcher = pass.dispatcher := by
  cases step.sight p with
  | kept same same_begins same_ends => exact ⟨pass, same.trans found, rfl, rfl⟩
  | started before after fresh no_calls named caller same_begins same_ends =>
    rw [before] at found
    cases found
  | turned before after becomes marks =>
    rw [before, Option.some.injEq] at found
    exact ⟨_, after, found ▸ becomes.same⟩

/-- A pass comes after the passes of those who wait for it, and nobody waits for another. -/
structure Linked (w : World) : Prop where
  earlier : ∀ (p : PassId) (pass : Pass), w.passes[p]? = some pass →
    ∀ call ∈ pass.lineage, call.pass < p
  inner : ∀ (p : PassId) (pass : Pass), w.passes[p]? = some pass →
    ∀ i q, pass.Awaits i q → w.IsInner p pass i q

theorem PassStep.isInner {opens : PassId → Prop} {w w' : World} (step : PassStep opens w w')
    {p : PassId} {pass pass' : Pass} (same : pass'.lineage = pass.lineage) {i : Nat} {q : PassId}
    (h : w.IsInner p pass i q) : w'.IsInner p pass' i q := by
  obtain ⟨inner, found, lineage⟩ := h
  obtain ⟨inner', found', same', -⟩ := step.keeps found
  exact ⟨inner', found', by rw [same', lineage, same]⟩

theorem PassStep.linked {opens : PassId → Prop} {w w' : World} (step : PassStep opens w w')
    (h : w.Linked) : w'.Linked := by
  refine ⟨fun p pass hp call hc => ?_, fun p pass hp i q waits => ?_⟩
  · cases step.sight p with
    | kept same same_begins same_ends => exact h.earlier p pass (same ▸ hp) call hc
    | @started new before after fresh no_calls named caller same_begins same_ends =>
      rw [after, Option.some.injEq] at hp
      subst hp
      rcases caller with outermost | ⟨first, outer, found, lineage⟩
      · simp [outermost] at hc
      · have there := (List.getElem?_eq_some_iff.mp found).1
        have first_lt : first.pass < p := there.trans_le (List.getElem?_eq_none_iff.mp before)
        rcases List.mem_cons.mp (lineage ▸ hc) with rfl | hc
        · exact first_lt
        · exact (h.earlier first.pass outer found call hc).trans first_lt
    | turned before after becomes marks =>
      rw [after, Option.some.injEq] at hp
      exact h.earlier p _ before call (becomes.same.1 ▸ hp ▸ hc)
  · cases step.sight p with
    | kept same same_begins same_ends =>
      exact step.isInner rfl (h.inner p pass (same ▸ hp) i q waits)
    | started before after fresh no_calls named caller same_begins same_ends =>
      rw [after, Option.some.injEq] at hp
      obtain ⟨call, number, propagate, rest, hc, -⟩ := waits
      simp [← hp, no_calls] at hc
    | turned before after becomes marks =>
      rw [after, Option.some.injEq] at hp
      subst hp
      refine step.isInner becomes.same.1 ?_
      exact (becomes.awaits waits).elim (h.inner p _ before i q) id

theorem Reached.linked {w : World} (h : w.Reached) : w.Linked := by
  refine Reached.induction ?_ ?_ h
  · exact fun arity blueprints => ⟨by simp, by simp⟩
  · exact fun w w' _ ih progress => progress.passStep.choose_spec.linked ih

end World
end Fanout
