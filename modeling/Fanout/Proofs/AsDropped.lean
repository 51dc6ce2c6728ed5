import Fanout.Proofs.VeilTurns

/-! How a pass ended does not matter to the world. Of a pass that is closed it may be told that it
was dropped, whatever came out of it: all that is done to the world after that comes to the same. -/
namespace Fanout

/-- A closed pass ended by being dropped. -/
def Phase.asDropped : Phase → Phase
  | closed _ => closed .dropped
  | phase => phase

def Pass.asDropped (pass : Pass) : Pass := { pass with phase := pass.phase.asDropped }

/-- What is told of the end of the pass `p` in place of how it ended. -/
def Ending.asDropped (p q : PassId) (ending : Ending) : Ending := if p = q then .dropped else ending

def Event.asDropped (p : PassId) : Event → Event
  | closed q d ending => closed q d (ending.asDropped p q)
  | event => event

/-- The world in which the pass was dropped, if it is closed. -/
def World.asDropped (p : PassId) (w : World) : World :=
  { w with
    passes := w.passes.modify p Pass.asDropped
    history := w.history.map (Event.asDropped p) }

/-- A pass as it is found there. -/
def Pass.told (p q : PassId) (pass : Pass) : Pass := if p = q then pass.asDropped else pass

theorem Phase.asDropped_asDropped (phase : Phase) : phase.asDropped.asDropped = phase.asDropped := by
  cases phase <;> rfl

theorem Phase.isOpen_asDropped (phase : Phase) : phase.asDropped.isOpen = phase.isOpen := by
  cases phase <;> rfl

theorem Event.asDropped_asDropped (p : PassId) (event : Event) :
    (event.asDropped p).asDropped p = event.asDropped p := by
  cases event with
  | closed q d ending =>
    by_cases h : p = q <;> simp [asDropped, Ending.asDropped, h]
  | _ => rfl

namespace Pass
variable (p q : PassId) (pass : Pass)

@[simp] theorem dispatcher_told : (pass.told p q).dispatcher = pass.dispatcher := by
  unfold told
  split <;> rfl

@[simp] theorem token_told : (pass.told p q).token = pass.token := by
  unfold told
  split <;> rfl

@[simp] theorem occasion_told : (pass.told p q).occasion = pass.occasion := by
  unfold told
  split <;> rfl

@[simp] theorem lineage_told : (pass.told p q).lineage = pass.lineage := by
  unfold told
  split <;> rfl

@[simp] theorem calls_told : (pass.told p q).calls = pass.calls := by
  unfold told
  split <;> rfl

@[simp] theorem permits_told : (pass.told p q).permits = pass.permits := by
  unfold told
  split <;> rfl

/-- A pass that is not closed is found there as it is. -/
theorem told_of_isOpen {pass : Pass} (isOpen : pass.phase.isOpen = true) :
    pass.told p q = pass := by
  obtain ⟨d, token, occasion, lineage, phase, calls, permits⟩ := pass
  unfold told
  split
  · cases phase with
    | closed ending => cases isOpen
    | _ => rfl
  · rfl

@[simp] theorem isOpen_told : (pass.told p q).phase.isOpen = pass.phase.isOpen := by
  unfold told
  split
  · exact pass.phase.isOpen_asDropped
  · rfl

@[simp] theorem unfinished_told : (pass.told p q).unfinished = pass.unfinished := by
  unfold told
  split <;> rfl

@[simp] theorem isCrowded_told : (pass.told p q).isCrowded = pass.isCrowded := by
  unfold told
  split <;> rfl

@[simp] theorem isOver_told : (pass.told p q).isOver = pass.isOver := by
  unfold told
  split <;> rfl

@[simp] theorem error?_told : (pass.told p q).error? = pass.error? := by
  unfold told
  split <;> rfl

end Pass

/-- What does not depend on how passes ended is the same of all of them. -/
theorem map_modify_asDropped {α : Type} {f : Pass → α} (same : ∀ pass, f pass.asDropped = f pass)
    (passes : List Pass) (p : PassId) : (passes.modify p Pass.asDropped).map f = passes.map f := by
  apply List.ext_getElem?
  intro q
  rw [List.getElem?_map, List.getElem?_modify, List.getElem?_map]
  split
  · cases passes[q]? with
    | none => rfl
    | some pass => exact congrArg some (same pass)
  · simp

namespace World
variable {p : PassId} (w : World)

theorem asDropped_asDropped : (w.asDropped p).asDropped p = w.asDropped p := by
  have passes : (w.passes.modify p Pass.asDropped).modify p Pass.asDropped =
      w.passes.modify p Pass.asDropped := by
    apply List.ext_getElem?
    intro q
    simp only [List.getElem?_modify]
    split
    · cases w.passes[q]? with
      | none => rfl
      | some pass => simp [Pass.asDropped, Phase.asDropped_asDropped]
    · simp
  have history : (w.history.map (Event.asDropped p)).map (Event.asDropped p) =
      w.history.map (Event.asDropped p) := by
    rw [List.map_map]
    exact List.map_congr_left fun event _ => event.asDropped_asDropped p
  simp only [asDropped, passes, history]

theorem getElem?_passes_asDropped (q : PassId) :
    (w.asDropped p).passes[q]? = (w.passes[q]?).map (Pass.told p q) := by
  simp only [asDropped, List.getElem?_modify]
  cases w.passes[q]? with
  | none => rfl
  | some pass => rfl

theorem length_passes_asDropped : (w.asDropped p).passes.length = w.passes.length :=
  List.length_modify _ _ _

theorem call?_asDropped (q : PassId) (i : Nat) : (w.asDropped p).call? q i = w.call? q i := by
  simp only [call?, getElem?_passes_asDropped]
  cases w.passes[q]? with
  | none => rfl
  | some pass => simp

theorem isCrowded_asDropped (q : PassId) : (w.asDropped p).isCrowded q = w.isCrowded q := by
  simp only [isCrowded, getElem?_passes_asDropped]
  cases w.passes[q]? with
  | none => rfl
  | some pass => simp

theorem keeps_asDropped (d : DispatcherId) : (w.asDropped p).keeps d = w.keeps d := by
  have any : ∀ passes : List Pass, (passes.any fun pass => pass.phase.isOpen &&
      decide (pass.dispatcher = d)) =
        (passes.map fun pass => pass.phase.isOpen && decide (pass.dispatcher = d)).any id := by
    intro passes
    rw [List.any_map]
    rfl
  have same : ((w.passes.modify p Pass.asDropped).map fun pass => pass.phase.isOpen &&
      decide (pass.dispatcher = d)) =
        w.passes.map fun pass => pass.phase.isOpen && decide (pass.dispatcher = d) :=
    map_modify_asDropped (fun pass => congrArg (· && _) pass.phase.isOpen_asDropped) _ p
  have passes : (w.asDropped p).passes = w.passes.modify p Pass.asDropped := rfl
  have names : (w.asDropped p).names = w.names := rfl
  simp only [keeps, any, passes, same, names]

theorem asDropped_modifyPass (q : PassId) {f : Pass → Pass}
    (commutes : ∀ pass : Pass, (f pass).asDropped = f pass.asDropped) :
    (w.modifyPass q f).asDropped p = (w.asDropped p).modifyPass q f := by
  have passes : (w.passes.modify q f).modify p Pass.asDropped =
      (w.passes.modify p Pass.asDropped).modify q f := by
    apply List.ext_getElem?
    intro r
    simp only [List.getElem?_modify]
    cases w.passes[r]? with
    | none => simp
    | some pass => by_cases hq : q = r <;> by_cases hp : p = r <;> simp [hq, hp, commutes]
  simp only [modifyPass, asDropped, passes]

@[simp] theorem asDropped_setStatus (q : PassId) (i : Nat) (status : Status) :
    (w.setStatus q i status).asDropped p = (w.asDropped p).setStatus q i status :=
  w.asDropped_modifyPass q fun _ => rfl

@[simp] theorem asDropped_setPermits (q : PassId) (permits : Permits) :
    (w.setPermits q permits).asDropped p = (w.asDropped p).setPermits q permits :=
  w.asDropped_modifyPass q fun _ => rfl

@[simp] theorem asDropped_setCalls (q : PassId) (calls : List Call) (permits : Option Permits) :
    (w.setCalls q calls permits).asDropped p = (w.asDropped p).setCalls q calls permits :=
  w.asDropped_modifyPass q fun _ => rfl

theorem start_asDropped (d : DispatcherId) (token : Option Token) (sender : String) (args : Int)
    (lineage : List CallId) : (w.asDropped p).start d token sender args lineage =
      Prod.map id (asDropped p) (w.start d token sender args lineage) := by
  have passes : ∀ pass : Pass, pass.phase = .fresh →
      (w.passes ++ [pass]).modify p Pass.asDropped =
        w.passes.modify p Pass.asDropped ++ [pass] := by
    intro pass fresh
    apply List.ext_getElem?
    intro q
    simp only [List.getElem?_modify, List.getElem?_append, List.length_modify]
    by_cases old : q < w.passes.length
    · simp only [old, if_true]
    · simp only [old, if_false]
      cases hq : [pass][q - w.passes.length]? with
      | none => rfl
      | some last =>
        have same : last = pass := List.mem_singleton.mp (List.mem_of_getElem? hq)
        have kept : pass.asDropped = pass := by
          simp only [Pass.asDropped, fresh, Phase.asDropped]
          rw [← fresh]
        by_cases hp : p = q <;> simp [hp, same, kept]
  have length : (w.asDropped p).passes.length = w.passes.length := w.length_passes_asDropped
  simp only [start, length, Prod.map, id]
  unfold asDropped
  dsimp only
  rw [passes]
  rfl

@[simp] theorem asDropped_release (h : HandlerId) :
    (w.release h).asDropped p = (w.asDropped p).release h := by
  have alive : (w.asDropped p).alive h = w.alive h := rfl
  have gone : ((w.asDropped p).letGo h).alive h = (w.letGo h).alive h := rfl
  simp only [release, alive, gone]
  split <;> rfl

@[simp] theorem asDropped_retainAll (hs : List HandlerId) :
    (w.retainAll hs).asDropped p = (w.asDropped p).retainAll hs :=
  (List.foldl_hom (asDropped p) fun _ _ => rfl).symm

@[simp] theorem asDropped_releaseAll (hs : List HandlerId) :
    (w.releaseAll hs).asDropped p = (w.asDropped p).releaseAll hs :=
  (List.foldl_hom (asDropped p) fun w h => (w.asDropped_release h).symm).symm

theorem isActive_asDropped (guard : Guard) :
    (w.asDropped p).isActive guard = w.isActive guard := by
  obtain ⟨_ | d, key, generation⟩ := guard
  · rfl
  · simp only [isActive, keeps_asDropped]
    rfl

theorem addressFor_asDropped (wish : Option Nat) :
    (w.asDropped p).addressFor wish = w.addressFor wish := by
  have occupied : ∀ address, (w.asDropped p).isOccupied address = w.isOccupied address := by
    intro address
    simp only [isOccupied, isReserved, keeps_asDropped]
    rfl
  cases wish with
  | none => rfl
  | some address =>
    simp only [addressFor, occupied]
    rfl

theorem asDropped_createHandler (h : HandlerId) (blueprint : Nat) (wish : Option Nat) :
    (w.createHandler h blueprint wish).asDropped p =
      (w.asDropped p).createHandler h blueprint wish := by
  simp only [createHandler, addressFor_asDropped]
  rfl

theorem registerWeak_asDropped (d : DispatcherId) (handle : Option HandlerId) :
    (w.asDropped p).registerWeak d handle =
      ((w.registerWeak d handle).1.asDropped p, (w.registerWeak d handle).2) := by
  cases handle with
  | none => rfl
  | some h =>
    have alive : (w.asDropped p).alive h = w.alive h := rfl
    simp only [registerWeak, alive]
    split <;> rfl

theorem unregisterWeak_asDropped (d : DispatcherId) (handle : Option HandlerId) :
    (w.asDropped p).unregisterWeak d handle =
      ((w.unregisterWeak d handle).1.asDropped p, (w.unregisterWeak d handle).2) := by
  have alive : (w.asDropped p).handleAlive handle = w.handleAlive handle := by cases handle <;> rfl
  have key : (w.asDropped p).handleKey handle = w.handleKey handle := by cases handle <;> rfl
  have registry : (w.asDropped p).registry d = w.registry d := rfl
  simp only [unregisterWeak, alive, key, registry]
  split
  · rfl
  · cases handle <;> rfl

theorem releaseGuard_asDropped (guard : Guard) : (w.asDropped p).releaseGuard guard =
    ((w.releaseGuard guard).1.asDropped p, (w.releaseGuard guard).2) := by
  obtain ⟨_ | d, key, generation⟩ := guard
  · rfl
  · simp only [releaseGuard, keeps_asDropped]
    split <;> rfl

theorem asDropped_dropGuard (guard : Guard) :
    (w.dropGuard guard).asDropped p = (w.asDropped p).dropGuard guard := by
  unfold dropGuard
  rw [releaseGuard_asDropped]

theorem unsubscribe_asDropped (guard : Guard) : (w.asDropped p).unsubscribe guard =
    ((w.unsubscribe guard).1.asDropped p, (w.unsubscribe guard).2) := by
  rw [unsubscribe_eq, unsubscribe_eq, releaseGuard_asDropped, asDropped_dropGuard]

@[simp] theorem asDropped_rouse (calls : List CallId) :
    (w.rouse calls).asDropped p = (w.asDropped p).rouse calls := by
  induction calls generalizing w with
  | nil => rfl
  | cons call callers ih =>
    have waking : (w.asDropped p).waking = w.waking := rfl
    simp only [rouse, isCrowded_asDropped, waking]
    split
    · split
      · rfl
      · split
        · rfl
        · exact ih _
    · exact ih w

@[simp] theorem asDropped_wake (call : CallId) :
    (w.wake call).asDropped p = (w.asDropped p).wake call := by
  simp only [wake, getElem?_passes_asDropped, call?_asDropped]
  cases w.passes[call.pass]? with
  | none => rfl
  | some pass =>
    cases w.call? call.pass call.position with
    | none => rfl
    | some there =>
      simp only [Option.map_some, Pass.lineage_told]
      split
      · exact w.asDropped_rouse _
      · rfl

@[simp] theorem asDropped_signal (s : Signal) :
    (w.signal s).asDropped p = (w.asDropped p).signal s :=
  (List.foldl_hom (asDropped p) fun w call => (w.asDropped_wake call).symm).symm

@[simp] theorem asDropped_cancelToken (token : Token) :
    (w.cancelToken token).asDropped p = (w.asDropped p).cancelToken token := by
  have same : (w.asDropped p).isCancelled token = w.isCancelled token := rfl
  simp only [cancelToken, same]
  split
  · rfl
  · exact asDropped_signal _ _

theorem asDropped_reorder (d : DispatcherId) (order : List (Key × Registration)) :
    (w.reorder d order).asDropped p = (w.asDropped p).reorder d order := by
  have same : (w.asDropped p).registry d = w.registry d := rfl
  simp only [reorder, same, apply_ite (asDropped p)]
  rfl

theorem attempt_asDropped (action : Action) :
    (w.asDropped p).attempt action = (w.attempt action).map (Prod.map (asDropped p) id) := by
  cases action with
  | createDispatcher name source => exact bind_map fun _ => rfl
  | dropDispatcher name => exact bind_map fun _ => rfl
  | createHandler name blueprint wish =>
    exact bind_map fun h => by rw [← asDropped_createHandler]; rfl
  | clone name => exact bind_map fun _ => rfl
  | drop name =>
    refine bind_map fun called => ok_map ?_
    simp only [Prod.map, asDropped_release]
    rfl
  | forget name => exact bind_map fun _ => rfl
  | alive handle => exact bind_map fun called => by cases called <;> rfl
  | handlerName name =>
    refine bind_map fun called => ?_
    dsimp only
    cases called.2.naming.read <;> rfl
  | rename name newName => exact bind_map fun _ => bind_map fun _ => rfl
  | register d name => exact bind_map fun _ => bind_map fun _ => rfl
  | registerWeak d handle =>
    exact bind_map fun d => bind_map fun handle => by rw [registerWeak_asDropped]; rfl
  | unregister d name => exact bind_map fun _ => bind_map fun _ => rfl
  | unregisterWeak d handle =>
    exact bind_map fun d => bind_map fun handle => by rw [unregisterWeak_asDropped]; rfl
  | subscribe guardName d name =>
    refine bind_map fun g => bind_map fun d => bind_map fun called => ?_
    have subscribed : (w.asDropped p).subscribe d called.1 =
        ((w.subscribe d called.1).1.asDropped p, (w.subscribe d called.1).2) := rfl
    simp only [subscribed, isActive_asDropped]
    rfl
  | unsubscribe name =>
    exact bind_map fun called => by simp only [unsubscribe_asDropped]; rfl
  | dropGuard name =>
    exact bind_map fun called => by simp only [← asDropped_dropGuard]; rfl
  | guardState name =>
    exact bind_map fun called => by simp only [guardAnswer, isActive_asDropped]; rfl
  | count name => exact bind_map fun _ => rfl
  | purge name => exact bind_map fun _ => rfl
  | describe name => exact bind_map fun _ => rfl
  | createToken name =>
    refine bind_map fun name => ?_
    rw [apply_ite (Except.map _)]
    rfl
  | cancel name => exact bind_map fun token => by rw [← asDropped_cancelToken]; rfl
  | cancelled name => exact bind_map fun _ => rfl
  | openGate name =>
    refine bind_map fun gate => ok_map ?_
    simp only [openGate, Prod.map, asDropped_signal]
    rfl
  | closeGate name => exact bind_map fun _ => rfl
  | stats => rfl
  | peak => rfl
  | unknown label => rfl

theorem perform_asDropped (action : Action) :
    (w.asDropped p).perform action = Prod.map (asDropped p) id (w.perform action) := by
  unfold perform
  rw [attempt_asDropped]
  cases w.attempt action <;> rfl

end World
end Fanout
