import Fanout.Proofs.Attention

/-! Calls and the passes they wait for know of each other. A pass that was raised by a call and is
not closed is waited for by this call, and a call waits for no pass that is closed, but for the one
that is about to learn of it. This is kept by whatever happens to the passes. -/
namespace Fanout

theorem Pass.Awaits.unique {pass : Pass} {i : Nat} {p q : PassId} (h : pass.Awaits i p)
    (h' : pass.Awaits i q) : p = q := by
  obtain ⟨call, number, propagate, rest, at_position, status⟩ := h
  obtain ⟨call', number', propagate', rest', at_position', status'⟩ := h'
  rw [at_position, Option.some.injEq] at at_position'
  rw [← at_position', status] at status'
  simp only [Status.running.injEq, Await.pass.injEq] at status'
  exact status'.2.1.1

theorem Pass.awaits_setCall_of_ne {pass : Pass} {i j : Nat} (other : i ≠ j) (status : Status)
    (q : PassId) : (pass.setCall i status).Awaits j q ↔ pass.Awaits j q := by
  simp only [Awaits, getElem?_setCall, other, if_false]

theorem Pass.Awaits.status_of_setCall {pass : Pass} {i : Nat} {status : Status} {q : PassId}
    (h : (pass.setCall i status).Awaits i q) :
    ∃ number propagate rest, status = .running number (.pass q propagate) rest := by
  obtain ⟨call, number, propagate, rest, at_position, waits⟩ := h
  rw [getElem?_setCall, if_pos rfl] at at_position
  obtain ⟨old, -, rfl⟩ := Option.map_eq_some_iff.mp at_position
  exact ⟨number, propagate, rest, waits⟩

def IsOpen (passes : List Pass) (q : PassId) : Prop :=
  ∃ inner, passes[q]? = some inner ∧ inner.phase.isOpen = true

/-- No pass under way was raised by the call. -/
def Alone (passes : List Pass) (call : CallId) : Prop :=
  ∀ q callers, ¬ Runs passes q (call :: callers)

/-- Passes under way are waited for by those who raised them, and no closed ones are, but by the
call that is about to end. -/
structure Paired (passes : List Pass) (ended : Option CallId) : Prop where
  attended : Attended passes
  awaited : ∀ (p : PassId) (pass : Pass) (i : Nat) (q : PassId), passes[p]? = some pass →
    pass.phase = .running → pass.Awaits i q → ended = some ⟨p, i⟩ ∨ IsOpen passes q
  alone : ∀ call, ended = some call → Alone passes call

theorem Attended.alone {passes : List Pass} (attended : Attended passes) {p : PassId} {pass : Pass}
    (found : passes[p]? = some pass) {i : Nat} (not_waiting : ∀ q, ¬ pass.Awaits i q) :
    Alone passes ⟨p, i⟩ := by
  intro q callers runs
  obtain ⟨outer, found_outer, -, -, waits⟩ := attended q ⟨p, i⟩ callers runs
  rw [found, Option.some.injEq] at found_outer
  exact not_waiting q (found_outer ▸ waits)

section
variable {passes : List Pass} {p : PassId} {old new : Pass} (found : passes[p]? = some old)
include found

theorem IsOpen.set {q : PassId} (h : IsOpen passes q) (isOpen : new.phase.isOpen = true) :
    IsOpen (passes.set p new) q := by
  obtain ⟨inner, found_inner, inner_open⟩ := h
  by_cases same : p = q
  · subst same
    exact ⟨new, World.getElem?_set_of_some _ found, isOpen⟩
  · exact ⟨inner, (List.getElem?_set_ne same).trans found_inner, inner_open⟩

end

namespace Paired
variable {passes : List Pass} {ended : Option CallId} {p : PassId} {old new : Pass}

theorem nil : Paired [] none := by
  refine ⟨?_, fun _ _ _ _ found => ?_, nofun⟩
  · rintro q call callers ⟨pass, found, -⟩
    simp at found
  · simp at found

/-- A pass under way goes on, and with that the call that was about to end is over. -/
theorem update (h : Paired passes ended) (found : passes[p]? = some old)
    (was_running : old.phase = .running) (running : new.phase = .running)
    (lineage : new.lineage = old.lineage)
    (forth : ∀ i q, ¬ Alone passes ⟨p, i⟩ → old.Awaits i q → new.Awaits i q)
    (back : ∀ i q, new.Awaits i q → old.Awaits i q ∧ ended ≠ some ⟨p, i⟩ ∨ IsOpen passes q)
    (only : ∀ call, ended = some call → call.pass = p) : Paired (passes.set p new) none := by
  have here := World.getElem?_set_of_some new found
  refine ⟨fun q call callers runs => ?_, fun r pass i q found_pass pass_running waits =>
    .inr (IsOpen.set found ?_ (by simp [running, Phase.isOpen])), nofun⟩
  · have before := Calms.runs_set found lineage (fun _ => was_running) runs
    obtain ⟨outer, found_outer, outer_running, outer_lineage, waits⟩ :=
      h.attended q call callers before
    by_cases same : p = call.pass
    · subst same
      rw [found, Option.some.injEq] at found_outer
      subst found_outer
      exact ⟨new, here, running, lineage.trans outer_lineage,
        forth call.position q (fun alone => alone q callers before) waits⟩
    · exact ⟨outer, (List.getElem?_set_ne same).trans found_outer, outer_running, outer_lineage,
        waits⟩
  · by_cases same : p = r
    · subst same
      rw [here, Option.some.injEq] at found_pass
      subst found_pass
      rcases back i q waits with ⟨old_waits, other⟩ | isOpen
      · exact (h.awaited p old i q found was_running old_waits).resolve_left other
      · exact isOpen
    · rw [List.getElem?_set_ne same] at found_pass
      refine (h.awaited r pass i q found_pass pass_running waits).resolve_left fun ends => ?_
      exact same (only _ ends).symm

/-- A call that has raised no pass under way goes on, perhaps with a wait for an open pass. -/
theorem setCall (h : Paired passes ended) (found : passes[p]? = some old)
    (running : old.phase = .running) (phase : new.phase = old.phase)
    (lineage : new.lineage = old.lineage) {i : Nat} {status : Status}
    (calls : new.calls = (old.setCall i status).calls) (alone : Alone passes ⟨p, i⟩)
    (only : ∀ call, ended = some call → call = ⟨p, i⟩)
    (waits : ∀ number q propagate rest, status = .running number (.pass q propagate) rest →
      IsOpen passes q) : Paired (passes.set p new) none := by
  have awaits : ∀ j q, new.Awaits j q ↔ (old.setCall i status).Awaits j q := by
    intro j q
    simp only [Pass.Awaits, calls]
  refine h.update found running (phase.trans running) lineage (fun j q not_alone old_waits => ?_)
    (fun j q new_waits => ?_) fun call ends => congrArg CallId.pass (only call ends)
  · have other : i ≠ j := by
      rintro rfl
      exact not_alone alone
    exact (awaits j q).mpr ((Pass.awaits_setCall_of_ne other status q).mpr old_waits)
  · have new_waits := (awaits j q).mp new_waits
    by_cases other : i = j
    · subst other
      obtain ⟨number, propagate, rest, same⟩ := new_waits.status_of_setCall
      exact .inr (waits number q propagate rest same)
    · refine .inl ⟨(Pass.awaits_setCall_of_ne other status q).mp new_waits, fun ends => other ?_⟩
      exact (congrArg CallId.position (only _ ends)).symm

/-- A pass for which somebody waits, if it was raised by somebody, is opened. -/
theorem opened (h : Paired passes none) (found : passes[p]? = some old)
    (fresh : old.phase = .fresh) (running : new.phase = .running)
    (not_waiting : ∀ i q, ¬ new.Awaits i q)
    (waited : ∀ call callers, new.lineage = call :: callers →
      ∃ outer, passes[call.pass]? = some outer ∧ outer.phase = .running ∧
        outer.lineage = callers ∧ outer.Awaits call.position p) :
    Paired (passes.set p new) none := by
  have here := World.getElem?_set_of_some new found
  have apart : ∀ {q : PassId} {pass : Pass}, passes[q]? = some pass → pass.phase = .running →
      (passes.set p new)[q]? = some pass := by
    intro q pass found_pass pass_running
    refine (List.getElem?_set_ne fun same => ?_).trans found_pass
    subst same
    rw [found, Option.some.injEq] at found_pass
    simp [← found_pass, fresh] at pass_running
  refine ⟨?_, fun r pass i q found_pass pass_running waits => .inr ?_, nofun⟩
  · rintro q call callers ⟨pass, found_pass, pass_running, lineage⟩
    have outer : ∃ outer, passes[call.pass]? = some outer ∧ outer.phase = .running ∧
        outer.lineage = callers ∧ outer.Awaits call.position q := by
      by_cases same : p = q
      · subst same
        rw [here, Option.some.injEq] at found_pass
        exact waited call callers (found_pass ▸ lineage)
      · rw [List.getElem?_set_ne same] at found_pass
        exact h.attended q call callers ⟨pass, found_pass, pass_running, lineage⟩
    obtain ⟨outer, found_outer, outer_running, rest⟩ := outer
    exact ⟨outer, apart found_outer outer_running, outer_running, rest⟩
  · by_cases same : p = r
    · subst same
      rw [here, Option.some.injEq] at found_pass
      exact absurd (found_pass ▸ waits) (not_waiting i q)
    · rw [List.getElem?_set_ne same] at found_pass
      have before := (h.awaited r pass i q found_pass pass_running waits).resolve_left (by simp)
      exact before.set found (by simp [running, Phase.isOpen])

/-- A pass is started. -/
theorem append (h : Paired passes ended) {inner : Pass} (fresh : inner.phase = .fresh) :
    Paired (passes ++ [inner]) ended := by
  have still : ∀ {q : PassId} {pass : Pass}, passes[q]? = some pass →
      (passes ++ [inner])[q]? = some pass := fun found => World.getElem?_append_of_some found _
  have old_of : ∀ {q : PassId} {pass : Pass}, (passes ++ [inner])[q]? = some pass →
      pass.phase = .running → passes[q]? = some pass := by
    intro q pass found running
    rw [List.getElem?_append] at found
    split at found
    · exact found
    · rw [List.mem_singleton.mp (List.mem_of_getElem? found), fresh] at running
      cases running
  have before : ∀ {q callers}, Runs (passes ++ [inner]) q callers → Runs passes q callers := by
    rintro q callers ⟨pass, found, running, lineage⟩
    exact ⟨pass, old_of found running, running, lineage⟩
  refine ⟨fun q call callers runs => ?_, fun p pass i q found running waits => ?_,
    fun call ends q callers runs => h.alone call ends q callers (before runs)⟩
  · obtain ⟨outer, found_outer, rest⟩ := h.attended q call callers (before runs)
    exact ⟨outer, still found_outer, rest⟩
  · refine (h.awaited p pass i q (old_of found running) running waits).imp id ?_
    rintro ⟨x, found_x, open_x⟩
    exact ⟨x, still found_x, open_x⟩

/-- Some passes are closed together, with all passes inside them. Of the calls that waited for one,
only that one goes on which is about to end. -/
theorem shut (h : Paired passes ended) {passes' : List Pass} {closes : PassId → Prop}
    {next : Option CallId} (last : ∀ call, ended = some call → closes call.pass)
    (kept : ∀ q, ¬ closes q → passes'[q]? = passes[q]?)
    (closed : ∀ q, closes q → ¬ IsOpen passes' q)
    (inside : ∀ q call callers, Runs passes q (call :: callers) → closes call.pass → closes q)
    (outside : ∀ (p : PassId) (pass : Pass) (i : Nat) (q : PassId), passes[p]? = some pass →
      pass.phase = .running → pass.Awaits i q → closes q → closes p ∨ next = some ⟨p, i⟩)
    (waited : ∀ call, next = some call → ∃ (pass : Pass) (q : PassId),
      passes[call.pass]? = some pass ∧ pass.Awaits call.position q ∧ closes q) :
    Paired passes' next := by
  have stays : ∀ {q : PassId} {pass : Pass}, passes'[q]? = some pass → pass.phase = .running →
      ¬ closes q ∧ passes[q]? = some pass := by
    intro q pass found running
    have open_still : ¬ closes q := fun closes =>
      closed q closes ⟨pass, found, by simp [running, Phase.isOpen]⟩
    exact ⟨open_still, (kept q open_still).symm.trans found⟩
  have before : ∀ {q callers}, Runs passes' q callers → ¬ closes q ∧ Runs passes q callers := by
    rintro q callers ⟨pass, found, running, lineage⟩
    obtain ⟨open_still, old⟩ := stays found running
    exact ⟨open_still, pass, old, running, lineage⟩
  refine ⟨fun q call callers runs => ?_, fun p pass i q found running waits => ?_,
    fun call ends q callers runs => ?_⟩
  · obtain ⟨open_still, old⟩ := before runs
    obtain ⟨outer, found_outer, rest⟩ := h.attended q call callers old
    have outer_open : ¬ closes call.pass :=
      fun closes => open_still (inside q call callers old closes)
    exact ⟨outer, (kept _ outer_open).trans found_outer, rest⟩
  · obtain ⟨open_still, old⟩ := stays found running
    by_cases gone : closes q
    · exact .inl ((outside p pass i q old running waits gone).resolve_left open_still)
    · obtain ⟨inner, found_inner, inner_open⟩ :=
        (h.awaited p pass i q old running waits).resolve_left fun ends =>
          open_still (last _ ends)
      exact .inr ⟨inner, (kept q gone).trans found_inner, inner_open⟩
  · obtain ⟨open_still, old⟩ := before runs
    obtain ⟨outer, found_outer, -, -, waits⟩ := h.attended q call callers old
    obtain ⟨pass, r, found_pass, waits', gone⟩ := waited call ends
    rw [found_outer, Option.some.injEq] at found_pass
    subst found_pass
    exact open_still (waits.unique waits' ▸ gone)

end Paired
end Fanout
