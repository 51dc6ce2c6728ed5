import Fanout.Proofs.Guards

/-! Veils. A veil is drawn over a world to compare it with another one: it hides a part of what
handlers still have to do, of what events carry, of the tokens, and of what was told so far. What is
done to a world is done to the veiled world in the same way, so it depends on nothing that the veil
hides. -/
namespace Fanout

/-- The answer that is given where the number of calls that returned is told in this way. -/
def Answer.shown (returned : Nat → Nat) : Answer → Answer
  | tally begun ended running => tally begun (returned ended) running
  | answer => answer

/-- What is told in place of a note, where the number of calls that returned and the state of tokens
are told in this way. -/
def Note.shown (returned : Nat → Nat) (flag : Bool → Bool) : Note → Note
  | said text => said text
  | token cancelled => token (flag cancelled)
  | did label answer => did label (answer.shown returned)

/-- What is told in place of an event, where moreover occasions are told in this way. -/
def Event.shown (occasion : Occasion → Occasion) (returned : Nat → Nat) (flag : Bool → Bool) :
    Event → Event
  | began p i h number carried cancelled => began p i h number (occasion carried) (flag cancelled)
  | noted p i h note => noted p i h (note.shown returned flag)
  | event => event

/-- What is put in place of what is hidden. -/
structure Veil where
  step : Step → Step := id
  verdict : Verdict → Verdict := id
  arity : Arity → Arity := id
  occasion : Occasion → Occasion := id
  cancelled : List Token → List Token := id
  flag : Bool → Bool := id
  returned : Nat → Nat := id
  history : List Event → List Event
  verdict_returned : ∀ error, verdict (.returned error) = .returned error := by intros; rfl
  occasion_arity : ∀ a sender args,
    (arity a).occasion sender args = occasion (a.occasion sender args) := by intros; rfl
  contains_cancelled : ∀ tokens token,
    (cancelled tokens).contains token = flag (tokens.contains token) := by intros; rfl
  /-- Events are told one by one, but for panics that were caught. -/
  history_cons : ∀ event earlier, (∀ p i d name info, event ≠ .caught p i d name info) →
    history (event :: earlier) = event.shown occasion returned flag :: history earlier

namespace Veil

/-! A veil that leaves some of it alone. -/

theorem verdict_kept (error : Option CallError) :
    id (Verdict.returned error) = .returned error := rfl

theorem occasion_kept (arity : Arity) (sender : String) (args : Int) :
    (id arity).occasion sender args = id (arity.occasion sender args) := rfl

theorem cancelled_kept (tokens : List Token) (token : Token) :
    (id tokens).contains token = id (tokens.contains token) := rfl

end Veil

def Step.under (v : Veil) (step : Step) : Step := v.step step

def Status.under (v : Veil) : Status → Status
  | running number await rest => running number await (rest.map (Step.under v))
  | status => status

def Call.under (v : Veil) (call : Call) : Call := { call with status := call.status.under v }

def Pass.under (v : Veil) (pass : Pass) : Pass :=
  { pass with occasion := v.occasion pass.occasion, calls := pass.calls.map (Call.under v) }

def Handler.under (v : Veil) (handler : Handler) : Handler :=
  { handler with scripts := handler.scripts.map (List.map (Step.under v)) }

def Blueprint.under (v : Veil) (blueprint : Blueprint) : Blueprint :=
  { blueprint with scripts := blueprint.scripts.map (List.map (Step.under v)) }

def Tally.under (v : Veil) (tally : Tally) : Tally :=
  { tally with returned := v.returned tally.returned }

def Answer.under (v : Veil) (answer : Answer) : Answer := answer.shown v.returned

def Note.under (v : Veil) (note : Note) : Note := note.shown v.returned v.flag

def Event.under (v : Veil) (event : Event) : Event := event.shown v.occasion v.returned v.flag

namespace Roster
variable {κ α β : Type} [DecidableEq κ]

def map (roster : Roster κ α) (f : α → β) : Roster κ β :=
  ⟨roster.entries.map fun e => (e.1, f e.2)⟩

@[simp] theorem find?_map (roster : Roster κ α) (f : α → β) (key : κ) :
    (roster.map f).find? key = (roster.find? key).map f := by
  obtain ⟨entries⟩ := roster
  simp only [find?, map]
  induction entries with
  | nil => rfl
  | cons e entries ih =>
    by_cases same : e.1 = key
    · simp [lookup, same]
    · simpa [lookup, same] using ih

theorem map_put (roster : Roster κ α) (f : α → β) (key : κ) (value : α) :
    (roster.put key value).map f = (roster.map f).put key (f value) := by
  obtain ⟨entries⟩ := roster
  simp only [put, map, Roster.mk.injEq]
  induction entries with
  | nil => rfl
  | cons e entries ih =>
    by_cases same : e.1 = key
    · simp [overwrite, same]
    · simpa [overwrite, same] using ih

theorem map_modify (roster : Roster κ α) {f : α → β} {g : α → α} {g' : β → β}
    (commutes : ∀ x, f (g x) = g' (f x)) (key : κ) :
    (roster.modify key g).map f = (roster.map f).modify key g' := by
  unfold modify
  rw [find?_map]
  cases roster.find? key with
  | none => rfl
  | some x => rw [map_put, commutes]; rfl

end Roster

theorem map_modify {α β : Type} {f : α → β} {g : α → α} {g' : β → β}
    (commutes : ∀ x, f (g x) = g' (f x)) (l : List α) (i : Nat) :
    (l.modify i g).map f = (l.map f).modify i g' := by
  apply List.ext_getElem?
  intro j
  simp only [List.getElem?_map, List.getElem?_modify]
  split
  · simp only [Option.map_eq_map, Option.map_map]
    exact congrArg (Option.map · l[j]?) (funext commutes)
  · simp

/-- The world, with all of it hidden that the veil hides. -/
def World.under (v : Veil) (w : World) : World :=
  { w with
    arity := v.arity w.arity
    blueprints := w.blueprints.map (Blueprint.under v)
    handlers := w.handlers.map (Handler.under v)
    cancelled := v.cancelled w.cancelled
    passes := w.passes.map (Pass.under v)
    tally := w.tally.under v
    history := v.history w.history }

variable {v : Veil}

@[simp] theorem Status.isRunning_under (status : Status) :
    (status.under v).isRunning = status.isRunning := by cases status <;> rfl

@[simp] theorem Status.isUnfinished_under (status : Status) :
    (status.under v).isUnfinished = status.isUnfinished := by cases status <;> rfl

@[simp] theorem Call.failure?_under (call : Call) : (call.under v).failure? = call.failure? := by
  obtain ⟨h, name, status⟩ := call
  cases status <;> rfl

namespace Pass
variable (pass : Pass)

theorem unfinished_under : (pass.under v).unfinished = pass.unfinished := by
  simp only [unfinished, under, List.length_map, List.getElem?_map]
  congr 1
  funext i
  cases pass.calls[i]? with
  | none => rfl
  | some call => exact call.status.isUnfinished_under

theorem isCrowded_under : (pass.under v).isCrowded = pass.isCrowded := by
  simp [isCrowded, under]

theorem isOver_under : (pass.under v).isOver = pass.isOver := by
  simp only [isOver, under, List.all_map]
  congr 1
  funext call
  simp [Call.under]

theorem failures_under : (pass.under v).failures = pass.failures := by
  simp only [failures, under, List.filterMap_map]
  congr 1
  funext call
  exact call.failure?_under

theorem error?_under : (pass.under v).error? = pass.error? := by
  have length : (pass.under v).calls.length = pass.calls.length := List.length_map _
  simp only [error?, failures_under, length]

theorem under_setCall (i : Nat) (status : Status) :
    (pass.setCall i status).under v = (pass.under v).setCall i (status.under v) := by
  simp only [setCall, under, Pass.mk.injEq, true_and, and_true]
  apply map_modify
  intro call
  rfl

end Pass

namespace World
variable (w : World)

@[simp] theorem names_under : (w.under v).names = w.names := rfl

@[simp] theorem guards_under : (w.under v).guards = w.guards := rfl

@[simp] theorem tokens_under : (w.under v).tokens = w.tokens := rfl

@[simp] theorem waking_under : (w.under v).waking = w.waking := rfl

@[simp] theorem registry_under (d : DispatcherId) : (w.under v).registry d = w.registry d := rfl

@[simp] theorem settings_under (d : DispatcherId) : (w.under v).settings d = w.settings d := rfl

theorem isCancelled_under (token : Token) :
    (w.under v).isCancelled token = v.flag (w.isCancelled token) :=
  v.contains_cancelled w.cancelled token

@[simp] theorem dispatcherCalled_under (name : Option String) :
    (w.under v).dispatcherCalled name = w.dispatcherCalled name := rfl

@[simp] theorem tokenCalled_under (name : Option String) :
    (w.under v).tokenCalled name = w.tokenCalled name := rfl

@[simp] theorem alive_under (h : HandlerId) : (w.under v).alive h = w.alive h := by
  simp only [alive, under, Roster.find?_map]
  cases w.handlers.find? h <;> rfl

@[simp] theorem keyOf_under (h : HandlerId) : (w.under v).keyOf h = w.keyOf h := by
  simp only [keyOf, under, Roster.find?_map]
  cases w.handlers.find? h <;> rfl

theorem find?_handlers_under (h : HandlerId) :
    (w.under v).handlers.find? h = (w.handlers.find? h).map (Handler.under v) :=
  Roster.find?_map w.handlers _ h

theorem handleAlive_under (handle : Option HandlerId) :
    (w.under v).handleAlive handle = w.handleAlive handle := by
  cases handle with
  | none => rfl
  | some h => exact w.alive_under h

/-- An event that is told in the same way. -/
theorem under_record (event : Event)
    (uncaught : ∀ p i d name info, event ≠ .caught p i d name info) :
    (w.record event).under v = (w.under v).record (event.under v) := by
  simp only [record, under, v.history_cons event w.history uncaught]
  rfl

theorem under_modifyHandler {f : Handler → Handler}
    (commutes : ∀ x, (f x).under v = f (x.under v)) (h : HandlerId) :
    (w.modifyHandler h f).under v = (w.under v).modifyHandler h f := by
  simp only [modifyHandler, under, Roster.map_modify w.handlers commutes h]

@[simp] theorem under_retain (h : HandlerId) : (w.retain h).under v = (w.under v).retain h := by
  apply under_modifyHandler
  intro x
  rfl

@[simp] theorem under_letGo (h : HandlerId) : (w.letGo h).under v = (w.under v).letGo h := by
  apply under_modifyHandler
  intro x
  rfl

@[simp] theorem under_release (h : HandlerId) : (w.release h).under v = (w.under v).release h := by
  have alive : ((w.under v).letGo h).alive h = (w.letGo h).alive h := by
    rw [← under_letGo, alive_under]
  simp only [release, alive_under, alive]
  split
  · rw [under_record _ _ (by simp), under_letGo]
    rfl
  · exact w.under_letGo h

@[simp] theorem under_retainAll (hs : List HandlerId) :
    (w.retainAll hs).under v = (w.under v).retainAll hs :=
  (List.foldl_hom (under v) fun w h => (w.under_retain h).symm).symm

@[simp] theorem under_releaseAll (hs : List HandlerId) :
    (w.releaseAll hs).under v = (w.under v).releaseAll hs :=
  (List.foldl_hom (under v) fun w h => (w.under_release h).symm).symm

@[simp] theorem keeps_under (d : DispatcherId) : (w.under v).keeps d = w.keeps d := by
  simp only [keeps, under, List.any_map]
  rfl

@[simp] theorem isActive_under (guard : Guard) : (w.under v).isActive guard = w.isActive guard := by
  obtain ⟨_ | d, key, generation⟩ := guard
  · rfl
  · rw [isActive_some, isActive_some, keeps_under]
    rfl

theorem isReserved_under (h : HandlerId) (handler : Handler) :
    (w.under v).isReserved h (handler.under v) = w.isReserved h handler := by
  simp only [isReserved, keeps_under]
  rfl

theorem addressFor_under (wish : Option Nat) : (w.under v).addressFor wish = w.addressFor wish := by
  have occupied : ∀ address, (w.under v).isOccupied address = w.isOccupied address := by
    intro address
    simp only [isOccupied, under, Roster.map, List.any_map]
    congr 1
    funext e
    exact congrArg (e.2.address = address && ·) (w.isReserved_under e.1 e.2)
  have fresh : (w.under v).freshAddress = w.freshAddress := by
    simp only [freshAddress, under, Roster.map, List.foldl_map]
    rfl
  cases wish with
  | none => exact fresh
  | some address => simp only [addressFor, occupied, fresh]

theorem getElem?_passes_under (p : PassId) :
    (w.under v).passes[p]? = w.passes[p]?.map (Pass.under v) := List.getElem?_map

theorem isCrowded_under (p : PassId) : (w.under v).isCrowded p = w.isCrowded p := by
  simp only [isCrowded, getElem?_passes_under]
  cases w.passes[p]? with
  | none => rfl
  | some pass => exact pass.isCrowded_under

theorem call?_under (p : PassId) (i : Nat) :
    (w.under v).call? p i = (w.call? p i).map (Call.under v) := by
  simp only [call?, getElem?_passes_under]
  cases w.passes[p]? with
  | none => rfl
  | some pass => exact List.getElem?_map

theorem under_modifyPass {f g : Pass → Pass} (p : PassId)
    (commutes : ∀ x, (f x).under v = g (x.under v)) :
    (w.modifyPass p f).under v = (w.under v).modifyPass p g := by
  simp only [modifyPass, under, map_modify commutes w.passes p]

@[simp] theorem under_setStatus (p : PassId) (i : Nat) (status : Status) :
    (w.setStatus p i status).under v = (w.under v).setStatus p i (status.under v) := by
  apply under_modifyPass
  intro pass
  exact pass.under_setCall i status

@[simp] theorem under_setPermits (p : PassId) (permits : Permits) :
    (w.setPermits p permits).under v = (w.under v).setPermits p permits := by
  apply under_modifyPass
  intro pass
  rfl

@[simp] theorem under_setCalls (p : PassId) (calls : List Call) (permits : Option Permits) :
    (w.setCalls p calls permits).under v =
      (w.under v).setCalls p (calls.map (Call.under v)) permits := by
  apply under_modifyPass
  intro pass
  rfl

theorem start_under (d : DispatcherId) (token : Option Token) (sender : String) (args : Int)
    (lineage : List CallId) : (w.under v).start d token sender args lineage =
      Prod.map id (under v) (w.start d token sender args lineage) := by
  simp only [start, under, Prod.map, List.map_append, List.length_map, v.occasion_arity]
  rfl

@[simp] theorem under_close (p : PassId) (ending : Ending) :
    (w.close p ending).under v = (w.under v).close p ending := by
  simp only [close, getElem?_passes_under]
  cases w.passes[p]? with
  | none => rfl
  | some pass =>
    have closes : (w.modifyPass p fun pass => { pass with phase := .closed ending }).under v =
        (w.under v).modifyPass p fun pass => { pass with phase := .closed ending } := by
      apply under_modifyPass
      intro pass
      rfl
    simp only [Option.map_some]
    rw [under_record _ _ (by simp), closes]
    rfl

@[simp] theorem under_cutCall (p : PassId) (i : Nat) (h : HandlerId) :
    (w.cutCall p i h).under v = (w.under v).cutCall p i h := by
  unfold cutCall
  rw [under_record _ _ (by simp)]
  rfl

@[simp] theorem under_abandonCall (p : PassId) (i : Nat) :
    (w.abandonCall p i).under v = (w.under v).abandonCall p i := by
  simp only [abandonCall, call?_under]
  cases w.call? p i with
  | none => rfl
  | some call =>
    simp only [Option.map_some, Call.under, Status.isRunning_under, Status.isUnfinished_under]
    split
    · simp only [under_release, under_setStatus, under_cutCall]
      rfl
    · split
      · simp only [under_release, under_setStatus]
        rfl
      · rfl

@[simp] theorem under_abandonPass (p : PassId) (ending : Ending) :
    (w.abandonPass p ending).under v = (w.under v).abandonPass p ending := by
  simp only [abandonPass, getElem?_passes_under]
  cases w.passes[p]? with
  | none => rfl
  | some pass =>
    simp only [Option.map_some]
    have same : (pass.under v).phase = pass.phase := rfl
    rw [same]
    split
    · have all : (w.abandonCalls p pass).under v = (w.under v).abandonCalls p (pass.under v) := by
        simp only [abandonCalls, Pass.under, List.length_map]
        exact (List.foldl_hom (under v) fun w i => (w.under_abandonCall p i).symm).symm
      rw [under_close, all]
    · rfl

theorem descendants_under (p : PassId) : (w.under v).descendants p = w.descendants p := by
  simp only [descendants, getElem?_passes_under]
  have length : (w.under v).passes.length = w.passes.length := List.length_map _
  rw [length]
  congr 1
  funext q
  cases w.passes[q]? <;> rfl

@[simp] theorem under_abandon (p : PassId) (ending : Ending) :
    (w.abandon p ending).under v = (w.under v).abandon p ending := by
  have all : ((w.descendants p).foldl (fun w q => w.abandonPass q .dropped) w).under v =
      (w.descendants p).foldl (fun w q => w.abandonPass q .dropped) (w.under v) :=
    (List.foldl_hom (under v) fun w q => (w.under_abandonPass q .dropped).symm).symm
  simp only [abandon, under_abandonPass, descendants_under, all]

@[simp] theorem under_rouse (calls : List CallId) :
    (w.rouse calls).under v = (w.under v).rouse calls := by
  induction calls generalizing w with
  | nil => rfl
  | cons call callers ih =>
    by_cases crowded : w.isCrowded call.pass = true
    · by_cases due : w.waking.isDue call = true
      · simp [rouse, isCrowded_under, crowded, due]
      · by_cases asked : (w.waking.enqueue [call]).hasAsked call.pass = true
        · simp [rouse, isCrowded_under, crowded, due, asked]
          rfl
        · simp [rouse, isCrowded_under, crowded, due, asked, ih]
          rfl
    · simp [rouse, isCrowded_under, crowded, ih]

@[simp] theorem under_wake (call : CallId) : (w.wake call).under v = (w.under v).wake call := by
  simp only [wake, getElem?_passes_under, call?_under]
  cases w.passes[call.pass]? with
  | none => rfl
  | some pass =>
    cases w.call? call.pass call.position with
    | none => rfl
    | some there =>
      simp only [Option.map_some, Call.under, Status.isUnfinished_under]
      split
      · exact w.under_rouse _
      · rfl

@[simp] theorem under_signal (s : Signal) : (w.signal s).under v = (w.under v).signal s :=
  (List.foldl_hom (under v) fun w call => (w.under_wake call).symm).symm

end World
end Fanout
