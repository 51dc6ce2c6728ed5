import Fanout.Proofs.Books
import Fanout.Proofs.Exactness

/-! The books balance. A call that began is in flight, or it returned, or it was cut, and only one of
these, and once; the tally says the same in numbers. So no call is left behind when its pass ends,
however it ends, and none begins after that. -/
namespace Fanout

namespace Books

def begun (books : Books) : List (CallId × HandlerId × Nat) :=
  books.strokes.filterMap Event.begun?

def returned (books : Books) : List CallId := books.strokes.filterMap Event.returned?

def cut (books : Books) : List CallId := books.strokes.filterMap Event.cut?

/-- What the books say when it was written down that a call is over. -/
theorem enter_end {event : Event} {call : CallId}
    (ended : event.returned? = some call ∨ event.cut? = some call) (books : Books) :
    (books.enter event).begun = books.begun ∧ (books.enter event).begunOf = books.begunOf ∧
      ((books.enter event).returned ++ (books.enter event).cut).Perm
        (call :: (books.returned ++ books.cut)) ∧
      (books.enter event).tally.begun = books.tally.begun ∧
      (books.enter event).tally.returned + books.returned.length =
        books.tally.returned + (books.enter event).returned.length ∧
      (books.enter event).tally.running = books.tally.running - 1 := by
  rcases ended with ended | ended
  · cases event with
    | returned p i h error =>
      cases ended
      refine ⟨rfl, rfl, .refl _, rfl, ?_, rfl⟩
      exact (Nat.add_assoc _ 1 _).trans (congrArg _ (Nat.add_comm 1 _))
    | _ => cases ended
  · cases event with
    | cut p i h =>
      cases ended
      exact ⟨rfl, rfl, List.perm_middle, rfl, rfl, rfl⟩
    | _ => cases ended

/-- The books say of every call how far it has come, and the tally counts what they say. -/
structure AccountFor (books : Books) (stages : CallId → Stage) : Prop where
  begun_once : (books.begun.map Prod.fst).Nodup
  numbered_once : (books.begun.map Prod.snd).Nodup
  numbered : ∀ call h number, (call, h, number) ∈ books.begun → number < books.begunOf h
  ended_once : (books.returned ++ books.cut).Nodup
  waiting : ∀ call, stages call = .waiting →
    call ∉ books.begun.map Prod.fst ∧ call ∉ books.returned ++ books.cut
  running : ∀ call h number, stages call = .running h number →
    (call, h, number) ∈ books.begun ∧ call ∉ books.returned ++ books.cut
  done : ∀ call, stages call = .done →
    (call ∈ books.begun.map Prod.fst ↔ call ∈ books.returned ++ books.cut)
  tally_begun : books.tally.begun = books.begun.length
  tally_returned : books.tally.returned = books.returned.length
  tally_running : books.tally.running + (books.returned ++ books.cut).length = books.begun.length

namespace AccountFor
variable {books : Books} {stages : CallId → Stage}

theorem of_running (h : books.AccountFor stages) {call : CallId} {handler : HandlerId}
    {number : Nat} (running : stages call = .running handler number) :
    call ∈ books.begun.map Prod.fst :=
  List.mem_map.mpr ⟨_, (h.running call handler number running).1, rfl⟩

theorem begun_of_ended (h : books.AccountFor stages) {call : CallId}
    (ended : call ∈ books.returned ++ books.cut) : call ∈ books.begun.map Prod.fst := by
  cases hs : stages call with
  | waiting => exact absurd ended (h.waiting call hs).2
  | running handler number => exact absurd ended (h.running call handler number hs).2
  | done => exact (h.done call hs).mpr ended

/-- A call that is at another stage than the one that moved is where it was. -/
theorem stage_before {call other : CallId} {now stage : Stage}
    (at_stage : Function.update stages call now other = stage) (apart : now ≠ stage) :
    other ≠ call ∧ stages other = stage := by
  have ne : other ≠ call := by
    rintro rfl
    exact apart (by rwa [Function.update_self] at at_stage)
  exact ⟨ne, by rwa [Function.update_of_ne ne] at at_stage⟩

/-- The next call of a handler begins. -/
theorem begin (h : books.AccountFor stages) {call : CallId} (waiting : stages call = .waiting)
    (handler : HandlerId) (occasion : Occasion) (cancelled : Bool) :
    (books.enter (.began call.pass call.position handler (books.begunOf handler) occasion
      cancelled)).AccountFor
        (Function.update stages call (.running handler (books.begunOf handler))) := by
  obtain ⟨not_begun, not_ended⟩ := h.waiting call waiting
  have new_number : (handler, books.begunOf handler) ∉ books.begun.map Prod.snd := by
    intro member
    obtain ⟨⟨other, _, _⟩, listed, rfl, rfl⟩ := List.mem_map.mp member
    exact lt_irrefl _ (h.numbered other _ _ listed)
  exact {
    begun_once := List.nodup_cons.mpr ⟨not_begun, h.begun_once⟩
    numbered_once := List.nodup_cons.mpr ⟨new_number, h.numbered_once⟩
    numbered := by
      intro other handler' number listed
      rcases List.mem_cons.mp listed with same | listed
      · cases same
        simp [enter]
      · refine (h.numbered other handler' number listed).trans_le ?_
        by_cases hh : handler' = handler
        · subst hh
          simp [enter]
        · simp [enter, Function.update_of_ne hh]
    ended_once := h.ended_once
    waiting := by
      intro other waits
      obtain ⟨ne, waits⟩ := stage_before waits (by simp)
      obtain ⟨not_begun', not_ended'⟩ := h.waiting other waits
      exact ⟨fun member => (List.mem_cons.mp member).elim ne not_begun', not_ended'⟩
    running := by
      intro other handler' number runs
      by_cases ne : other = call
      · subst ne
        simp only [Function.update_self, Stage.running.injEq] at runs
        obtain ⟨rfl, rfl⟩ := runs
        exact ⟨List.mem_cons_self, not_ended⟩
      · rw [Function.update_of_ne ne] at runs
        obtain ⟨listed, not_ended'⟩ := h.running other handler' number runs
        exact ⟨List.mem_cons_of_mem _ listed, not_ended'⟩
    done := by
      intro other is_done
      obtain ⟨ne, is_done⟩ := stage_before is_done (by simp)
      refine Iff.trans ?_ (h.done other is_done)
      exact ⟨fun member => (List.mem_cons.mp member).resolve_left ne, List.mem_cons_of_mem _⟩
    tally_begun := congrArg (· + 1) h.tally_begun
    tally_returned := h.tally_returned
    tally_running := by
      have := h.tally_running
      simp only [enter, Tally.began, begun, returned, cut, List.filterMap_cons, Event.begun?,
        Event.returned?, Event.cut?, List.length_cons] at this ⊢
      omega }

/-- Fewer calls were over than begun, as long as one is in flight. -/
theorem ended_lt_begun (h : books.AccountFor stages) {call : CallId} {handler : HandlerId}
    {number : Nat} (running : stages call = .running handler number) :
    (books.returned ++ books.cut).length < books.begun.length := by
  have not_ended := (h.running call handler number running).2
  have sub : (call :: (books.returned ++ books.cut)) ⊆ books.begun.map Prod.fst := by
    intro other member
    rcases List.mem_cons.mp member with rfl | member
    · exact h.of_running running
    · exact h.begun_of_ended member
  have short := ((List.nodup_cons.mpr ⟨not_ended, h.ended_once⟩).subperm sub).length_le
  simpa using short

/-- A call that is in flight returns, or it is cut. -/
theorem finish (h : books.AccountFor stages) {call : CallId} {handler : HandlerId} {number : Nat}
    (running : stages call = .running handler number) {event : Event}
    (ended : event.returned? = some call ∨ event.cut? = some call) :
    (books.enter event).AccountFor (Function.update stages call .done) := by
  obtain ⟨listed, not_ended⟩ := h.running call handler number running
  obtain ⟨same_begun, same_numbers, now_ended, tally_begun, tally_returned, tally_running⟩ :=
    enter_end ended books
  have fewer := h.ended_lt_begun running
  exact {
    begun_once := same_begun ▸ h.begun_once
    numbered_once := same_begun ▸ h.numbered_once
    numbered := by
      rw [same_begun, same_numbers]
      exact h.numbered
    ended_once := now_ended.nodup_iff.mpr (List.nodup_cons.mpr ⟨not_ended, h.ended_once⟩)
    waiting := by
      intro other waits
      obtain ⟨ne, waits⟩ := stage_before waits (by simp)
      obtain ⟨not_begun, not_ended'⟩ := h.waiting other waits
      rw [same_begun, now_ended.mem_iff, List.mem_cons, not_or]
      exact ⟨not_begun, ne, not_ended'⟩
    running := by
      intro other handler' number' runs
      obtain ⟨ne, runs⟩ := stage_before runs (by simp)
      obtain ⟨listed', not_ended'⟩ := h.running other handler' number' runs
      rw [same_begun, now_ended.mem_iff, List.mem_cons, not_or]
      exact ⟨listed', ne, not_ended'⟩
    done := by
      intro other is_done
      rw [same_begun, now_ended.mem_iff, List.mem_cons]
      by_cases ne : other = call
      · subst ne
        exact iff_of_true (h.of_running running) (.inl rfl)
      · rw [Function.update_of_ne ne] at is_done
        rw [h.done other is_done]
        simp [ne]
    tally_begun := by rw [same_begun, tally_begun, h.tally_begun]
    tally_returned := by
      have := h.tally_returned
      omega
    tally_running := by
      have := h.tally_running
      rw [same_begun, now_ended.length_eq, tally_running, List.length_cons]
      omega }

/-- A call that never began is given up. -/
theorem giveUp (h : books.AccountFor stages) {call : CallId} (waiting : stages call = .waiting) :
    books.AccountFor (Function.update stages call .done) := by
  obtain ⟨not_begun, not_ended⟩ := h.waiting call waiting
  refine { h with waiting := ?_, running := ?_, done := ?_ }
  · intro other waits
    exact h.waiting other (stage_before waits (by simp)).2
  · intro other handler number runs
    exact h.running other handler number (stage_before runs (by simp)).2
  · intro other is_done
    by_cases ne : other = call
    · subst ne
      exact iff_of_false not_begun not_ended
    · exact h.done other (by rwa [Function.update_of_ne ne] at is_done)

end AccountFor
end Books

namespace World

theorem Entry.accounts {w w' : World} (entry : w.Entry w') (h : w.books.AccountFor w.stageOf) :
    w'.books.AccountFor w'.stageOf := by
  cases entry with
  | still books stages => rwa [books, stages]
  | begin handler occasion cancelled waiting books stages =>
    rw [books, stages]
    exact h.begin waiting handler occasion cancelled
  | finish running ended books stages =>
    rw [books, stages]
    exact h.finish running ended
  | giveUp waiting books stages =>
    rw [books, stages]
    exact h.giveUp waiting

theorem Entries.accounts {w w' : World} (entries : w.Entries w')
    (h : w.books.AccountFor w.stageOf) : w'.books.AccountFor w'.stageOf := by
  induction entries with
  | refl => exact h
  | tail _ entry ih => exact entry.accounts ih

theorem Reached.accounts {w : World} (h : w.Reached) : w.books.AccountFor w.stageOf := by
  refine Reached.induction (P := fun w => w.books.AccountFor w.stageOf) ?_ ?_ h
  · intro arity blueprints
    have waiting : ∀ call, ({ arity, blueprints } : World).stageOf call = .waiting := by
      simp [stageOf]
    refine ⟨?_, ?_, ?_, ?_, ?_, ?_, ?_, rfl, rfl, rfl⟩ <;>
      simp [books, Books.begun, Books.returned, Books.cut, waiting]
  · exact fun w w' reached ih progress => (progress.entries reached).accounts ih

def callsBegun (w : World) : List (CallId × HandlerId × Nat) := w.history.filterMap Event.begun?

def callsReturned (w : World) : List CallId := w.history.filterMap Event.returned?

def callsCut (w : World) : List CallId := w.history.filterMap Event.cut?

def inFlight (w : World) : List CallId :=
  (List.range w.passes.length).flatMap fun p =>
    ((List.range ((w.passes[p]?).elim 0 fun pass => pass.calls.length)).filter fun i =>
      (w.call? p i).any fun call => call.status.isRunning).map (CallId.mk p)

theorem callsBegun_eq (w : World) : w.callsBegun = w.books.begun := by
  unfold callsBegun Books.begun books
  rw [List.filterMap_filter]
  congr 1
  funext event
  cases event <;> rfl

theorem callsReturned_eq (w : World) : w.callsReturned = w.books.returned := by
  unfold callsReturned Books.returned books
  rw [List.filterMap_filter]
  congr 1
  funext event
  cases event <;> rfl

theorem callsCut_eq (w : World) : w.callsCut = w.books.cut := by
  unfold callsCut Books.cut books
  rw [List.filterMap_filter]
  congr 1
  funext event
  cases event <;> rfl

theorem mem_inFlight_iff (w : World) (call : CallId) : call ∈ w.inFlight ↔
    ∃ c, w.call? call.pass call.position = some c ∧ c.status.isRunning = true := by
  obtain ⟨p, i⟩ := call
  simp only [inFlight, List.mem_flatMap, List.mem_map, List.mem_filter, List.mem_range,
    Option.any_eq_true, CallId.mk.injEq]
  constructor
  · rintro ⟨_, -, _, ⟨-, found⟩, rfl, rfl⟩
    exact found
  · rintro ⟨c, found, running⟩
    obtain ⟨pass, here, there⟩ := exists_of_call? found
    have short := (List.getElem?_eq_some_iff.mp there).1
    refine ⟨p, (List.getElem?_eq_some_iff.mp here).1, i, ⟨?_, c, found, running⟩, rfl, rfl⟩
    simpa [here] using short

theorem nodup_inFlight (w : World) : w.inFlight.Nodup := by
  refine List.nodup_flatMap.mpr ⟨fun p _ => ?_, ?_⟩
  · exact (List.nodup_range.filter _).map fun i j h => by simpa using h
  · refine List.nodup_range.imp_of_mem fun {p q} _ _ hpq => ?_
    intro call hp hq
    obtain ⟨i, -, rfl⟩ := List.mem_map.mp hp
    obtain ⟨j, -, same⟩ := List.mem_map.mp hq
    exact hpq (congrArg CallId.pass same).symm

/-- A call is in flight exactly if it has come so far. -/
theorem inFlight_iff_stage (w : World) (call : CallId) :
    call ∈ w.inFlight ↔ ∃ h number, w.stageOf call = .running h number := by
  rw [mem_inFlight_iff]
  cases hc : w.call? call.pass call.position with
  | none =>
    have waiting : w.stageOf call = .waiting := stageOf_of_none hc
    simp [waiting]
  | some c =>
    rw [show w.stageOf call = c.stage from stageOf_of_call? hc]
    cases hs : c.status <;> simp [Call.stage, hs, Status.isRunning]

/-- Every call that began is in flight or over. -/
theorem Reached.begun_perm {w : World} (h : w.Reached) :
    (w.callsBegun.map Prod.fst).Perm (w.callsReturned ++ w.callsCut ++ w.inFlight) := by
  have accounts := h.accounts
  rw [callsBegun_eq, callsReturned_eq, callsCut_eq]
  refine (List.perm_ext_iff_of_nodup accounts.begun_once ?_).mpr fun call => ?_
  · refine List.nodup_append'.mpr ⟨accounts.ended_once, w.nodup_inFlight, fun call ended flies => ?_⟩
    obtain ⟨handler, number, running⟩ := (w.inFlight_iff_stage call).mp flies
    exact (accounts.running call handler number running).2 ended
  · rw [List.mem_append, inFlight_iff_stage]
    cases hs : w.stageOf call with
    | waiting =>
      obtain ⟨not_begun, not_ended⟩ := accounts.waiting call hs
      exact iff_of_false not_begun (by simpa using not_ended)
    | running handler number =>
      exact iff_of_true (accounts.of_running hs) (.inr ⟨handler, number, rfl⟩)
    | done => simpa using accounts.done call hs

/-- A pass that is closed has no call in flight. -/
theorem Reached.not_inFlight_of_closed {w : World} (h : w.Reached) {p : PassId} {pass : Pass}
    (found : w.passes[p]? = some pass) (closed : pass.phase.isOpen = false) :
    ∀ call ∈ w.inFlight, call.pass ≠ p := by
  rintro ⟨q, i⟩ flies rfl
  obtain ⟨c, there, running⟩ := (w.mem_inFlight_iff _).mp flies
  obtain ⟨pass', found', at_position⟩ := exists_of_call? there
  cases found.symm.trans found'
  cases hp : pass.phase with
  | closed ending =>
    have finished := (h.recorded.sound q pass found).closed_over ending hp c
      (List.mem_of_getElem? at_position)
    rw [Status.isUnfinished_of_isRunning running] at finished
    cases finished
  | _ => simp [hp, Phase.isOpen] at closed

/-- No call of a pass begins after the pass is closed. -/
theorem Leads.begins_of_closed {w w' : World} (leads : w.Leads w') {p : PassId} {pass : Pass}
    (found : w.passes[p]? = some pass) (closed : pass.phase.isOpen = false) :
    begins p w'.history = begins p w.history := by
  rw [begins_history, begins_history]
  induction leads with
  | refl => rfl
  | tail before progress ih =>
    have still := Leads.closed before found closed
    cases progress.passStep.choose_spec.sight p with
    | kept same same_begins same_ends => exact same_begins.trans ih
    | started absent after fresh no_calls named caller same_begins same_ends =>
      exact same_begins.trans ih
    | turned here after becomes marks =>
      rw [still, Option.some.injEq] at here
      rw [here, becomes.was_open] at closed
      cases closed

/-- The books of a world balance. -/
structure Squared (w : World) : Prop where
  begun : w.tally.begun = w.callsBegun.length
  returned : w.tally.returned = w.callsReturned.length
  running : w.tally.running = w.inFlight.length
  balance : w.callsBegun.length =
    w.callsReturned.length + w.callsCut.length + w.inFlight.length
  /-- Every call that began has returned, was cut, or is in flight. -/
  all_there : (w.callsBegun.map Prod.fst).Perm (w.callsReturned ++ w.callsCut ++ w.inFlight)
  once : (w.callsReturned ++ w.callsCut ++ w.inFlight).Nodup
  numbered : (w.callsBegun.map Prod.snd).Nodup

theorem Reached.squared {w : World} (h : w.Reached) : w.Squared := by
  have accounts := h.accounts
  have perm := h.begun_perm
  have lengths := perm.length_eq
  have running := accounts.tally_running
  simp only [List.length_map, List.length_append] at lengths running
  rw [← callsBegun_eq, ← callsReturned_eq, ← callsCut_eq] at running
  have same_tally : w.books.tally = w.tally := rfl
  exact {
    begun := by rw [callsBegun_eq, ← accounts.tally_begun]; rfl
    returned := by rw [callsReturned_eq, ← accounts.tally_returned]; rfl
    running := by rw [same_tally] at running; omega
    balance := lengths
    all_there := perm
    once := perm.nodup_iff.mp (by rw [callsBegun_eq]; exact accounts.begun_once)
    numbered := by rw [callsBegun_eq]; exact accounts.numbered_once }

end World

namespace Machine

/-- No call is orphaned. Whatever was done so far: the calls that began are those that returned,
those that were cut and those that are in flight, every one of them once, and the tally counts them.
Each call in flight is the only one of its handler with its number, and it belongs to a pass that
was polled and did not end. A pass that has ended in any way has no call in flight, and whatever is
done after that, none of its calls begins. -/
theorem no_call_is_orphaned (arity : Arity) (blueprints : List Blueprint) (moves : List Move) :
    let m := (idle arity blueprints).run moves
    m.world.Squared ∧
      (∀ call ∈ m.world.inFlight,
        (∃ h number, (call, h, number) ∈ m.world.callsBegun ∧
          ∀ other, (other, h, number) ∈ m.world.callsBegun → other = call) ∧
        ∃ pass opening, m.world.passes[call.pass]? = some pass ∧ pass.phase = .running ∧
          (idle arity blueprints).openingOf call.pass moves = some opening) ∧
      ∀ (p : PassId) (pass : Pass) (ending : Ending), m.world.passes[p]? = some pass →
        pass.phase = .closed ending → ∀ more : List Move,
          (∀ call ∈ (m.run more).world.inFlight, call.pass ≠ p) ∧
            begins p (m.run more).world.history = begins p m.world.history := by
  intro m
  have steady : m.Steady := (run_steady (steady_idle arity blueprints) moves).2
  have squared := steady.reached.squared
  refine ⟨squared, fun call flies => ⟨?_, ?_⟩, fun p pass ending found closed more => ?_⟩
  · obtain ⟨h, number, running⟩ := (m.world.inFlight_iff_stage call).mp flies
    have listed := (steady.reached.accounts.running call h number running).1
    rw [← World.callsBegun_eq] at listed
    refine ⟨h, number, listed, fun other listed' => ?_⟩
    exact congrArg Prod.fst (List.inj_on_of_nodup_map squared.numbered listed' listed rfl)
  · obtain ⟨c, there, running⟩ := (m.world.mem_inFlight_iff call).mp flies
    obtain ⟨pass, found, at_position⟩ := World.exists_of_call? there
    cases opens : (idle arity blueprints).openingOf call.pass moves with
    | none =>
      have unopened := run_unopened (steady_idle arity blueprints) opens
        (fun pass found => by simp [idle] at found) pass found
      simp [unopened.1] at at_position
    | some opening =>
      refine ⟨pass, opening, found, ?_, rfl⟩
      cases hp : pass.phase with
      | fresh =>
        simp [(steady.reached.recorded.sound _ pass found).fresh_empty hp] at at_position
      | running => rfl
      | closed ending =>
        exact absurd rfl (steady.reached.not_inFlight_of_closed found
          (by rw [hp]; rfl) call flies)
  · have shut : pass.phase.isOpen = false := by rw [closed]; rfl
    obtain ⟨leads, steady'⟩ := run_steady steady more
    exact ⟨steady'.reached.not_inFlight_of_closed (leads.closed found shut) shut,
      leads.begins_of_closed found shut⟩

end Machine
end Fanout
