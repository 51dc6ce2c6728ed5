import Fanout.Proofs.Run

/-! What a run consists of. Whatever the parties to a world do, and however far a poll goes in one
step, the world changes by the small changes listed here, one at a time: by deeds, which leave all
passes alone, in the life of a pass and its calls, or because a pass is opened. A statement about
all reached worlds is proved by going through these lists once. -/
namespace Fanout.World

def Named (w : World) (d : DispatcherId) : Prop := ∃ name, w.names.find? name = some d

/-- A call may begin: nothing is in short supply, it takes a permit, or it was handed one. The last
argument is the world in which it begins. -/
inductive Admits (w : World) (p : PassId) (pass : Pass) (call : Call) : World → Prop
  | freely (idle : call.status = .idle) (unlimited : pass.permits = none) : Admits w p pass call w
  | taking {permits left : Permits} (idle : call.status = .idle)
      (limited : pass.permits = some permits) (free : permits.take? = some left) :
      Admits w p pass call (w.setPermits p left)
  | granted (granted : call.status = .granted) : Admits w p pass call w

namespace Admits
variable {w admitted : World} {p : PassId} {pass : Pass} {call : Call}

/-- A call that begins is not over, and does not run. -/
theorem unfinished (admits : w.Admits p pass call admitted) :
    call.status.isUnfinished = true := by
  cases admits <;> simp_all [Status.isUnfinished]

theorem not_running (admits : w.Admits p pass call admitted) (number : Nat) (await : Await)
    (rest : Script) : call.status ≠ .running number await rest := by
  cases admits <;> simp_all

/-- Permits are all that it takes. -/
theorem eq_passes (admits : w.Admits p pass call admitted) :
    ∃ passes, admitted = { w with passes } := by
  cases admits with
  | taking idle limited free => exact ⟨_, rfl⟩
  | _ => exact ⟨w.passes, rfl⟩

theorem handlers (admits : w.Admits p pass call admitted) :
    admitted.handlers = w.handlers := by
  obtain ⟨passes, rfl⟩ := admits.eq_passes
  rfl

theorem waking_beginCall (admits : w.Admits p pass call admitted) (i : Nat) :
    (admitted.beginCall p i pass call).waking = w.waking := by
  obtain ⟨passes, rfl⟩ := admits.eq_passes
  unfold beginCall
  split
  · rfl
  · rfl

end Admits

structure IsCall (w : World) (p : PassId) (i : Nat) (pass : Pass) (call : Call) : Prop where
  found : w.passes[p]? = some pass
  running : pass.phase = .running
  at_position : pass.calls[i]? = some call

/-- The call of the pass at this position has raised the event of the other pass. -/
def IsInner (w : World) (p : PassId) (pass : Pass) (i : Nat) (q : PassId) : Prop :=
  ∃ inner, w.passes[q]? = some inner ∧ inner.lineage = ⟨p, i⟩ :: pass.lineage

/-- What is done to a world at once. -/
inductive Deed (w : World) : World → Prop
  | quiet (tokens : List String) (cancelled : List Token) (openGates arrivals : List String)
      (waking : Waking) : Deed w { w with tokens, cancelled, openGates, arrivals, waking }
  | tell (p : PassId) (i : Nat) (h : HandlerId) (note : Note) : Deed w (w.tell p i h note)
  | createDispatcher {name : String} (settings : Settings) (vacant : w.names.find? name = none) :
      Deed w { w with
        dispatchers := w.dispatchers ++ [{ settings }],
        names := w.names.put name w.dispatchers.length }
  | dropDispatcher (name : String) : Deed w { w with names := w.names.erase name }
  | createHandler {h : HandlerId} (blueprint : Nat) (wish : Option Nat)
      (vacant : w.handlers.find? h = none) : Deed w (w.createHandler h blueprint wish)
  | clone {h : HandlerId} {handler : Handler} (found : w.handlers.find? h = some handler)
      (owned : handler.owned ≠ 0) :
      Deed w ((w.modifyHandler h fun x => { x with owned := x.owned + 1 }).retain h)
  | drop {h : HandlerId} {handler : Handler} (found : w.handlers.find? h = some handler)
      (owned : handler.owned ≠ 0) :
      Deed w ((w.modifyHandler h fun x => { x with owned := x.owned - 1 }).release h)
  | forget (h : HandlerId) : Deed w (w.modifyHandler h fun x => { x with watched := false })
  | rename (h : HandlerId) (name : String) :
      Deed w (w.modifyHandler h fun x => { x with naming := x.naming.rename name })
  | register {d : DispatcherId} {h : HandlerId} {handler : Handler} (named : w.Named d)
      (found : w.handlers.find? h = some handler)
      (held : handler.owned ≠ 0 ∨ handler.alive = true ∧ handler.watched = true) :
      Deed w (w.register d h)
  | subscribe {d : DispatcherId} {h : HandlerId} {handler : Handler} {name : String}
      (named : w.Named d) (found : w.handlers.find? h = some handler) (owned : handler.owned ≠ 0)
      (vacant : w.guards.find? name = none) :
      Deed w { (w.subscribe d h).1 with guards := w.guards.put name (w.subscribe d h).2 }
  | unregister {d : DispatcherId} {h : HandlerId} {handler : Handler} (named : w.Named d)
      (found : w.handlers.find? h = some handler)
      (held : handler.owned ≠ 0 ∨ handler.watched = true) : Deed w (w.unregister d h).1
  | unregisterEmpty (d : DispatcherId) : Deed w (w.unregisterWeak d none).1
  | dropGuard {name : String} {guard : Guard} (found : w.guards.find? name = some guard) :
      Deed w { w.dropGuard guard with guards := w.guards.erase name }
  | purge {d : DispatcherId} (named : w.Named d) : Deed w (w.purge d none).1
  | arrange {d : DispatcherId} {order : List (Key × Registration)}
      (perm : order.Perm (w.registry d).entries.entries) : Deed w (w.arrange d order)

/-- What happens to the passes of a world, other than that one is opened. -/
inductive Change (w : World) : World → Prop
  | deed {w' : World} (deed : Deed w w') : Change w w'
  | start {d : DispatcherId} (named : w.Named d) (token : Option Token) (sender : String)
      (args : Int) {lineage : List CallId}
      (caller : lineage = [] ∨ ∃ (call : CallId) (pass : Pass),
        w.passes[call.pass]? = some pass ∧ lineage = call :: pass.lineage) :
      Change w (w.start d token sender args lineage).2
  | queue {p : PassId} {i : Nat} {pass : Pass} {call : Call} {permits : Permits}
      (call_of : w.IsCall p i pass call) (idle : call.status = .idle)
      (limited : pass.permits = some permits) (short : permits.take? = none) :
      Change w ((w.setPermits p (permits.enqueue i)).setStatus p i .queued)
  | begin {p : PassId} {i : Nat} {pass : Pass} {call : Call} {admitted : World}
      (call_of : w.IsCall p i pass call) (admits : w.Admits p pass call admitted) :
      Change w (admitted.beginCall p i pass call)
  | proceed {p : PassId} {i : Nat} {pass : Pass} {call : Call} {number : Nat} {before : Await}
      {todo : Script} (call_of : w.IsCall p i pass call)
      (begun : call.status = .running number before todo) (after : Await) (rest : Script)
      (waits : ∀ q propagate, after = .pass q propagate → w.IsInner p pass i q) :
      Change w (w.setStatus p i (.running number after rest))
  | returnCall {p : PassId} {i : Nat} {pass : Pass} {call : Call}
      (call_of : w.IsCall p i pass call) (begun : call.status.isRunning = true)
      (error : Option CallError) : Change w (w.returnCall p i call.handler error)
  | catchPanic {p : PassId} {i : Nat} {pass : Pass} {call : Call}
      (call_of : w.IsCall p i pass call) (begun : call.status.isRunning = true)
      (isolated : (w.settings pass.dispatcher).isolatePanics = true) (payload : Payload) :
      Change w (w.catchPanic p i pass.dispatcher call payload)
  | complete {p : PassId} {pass : Pass} (found : w.passes[p]? = some pass)
      (running : pass.phase = .running) (finished : pass.isOver = true) :
      Change w (w.close p (.completed pass.error?))
  | giveUp {p : PassId} {pass : Pass} (found : w.passes[p]? = some pass)
      (isOpen : pass.phase.isOpen = true) {ending : Ending}
      (incomplete : ∀ error, ending ≠ .completed error)
      (unisolated : ∀ payload, ending = .panicked payload →
        (w.settings pass.dispatcher).isolatePanics = false) : Change w (w.abandonPass p ending)

/-- One change, or the first poll of a pass. -/
inductive Progress (w : World) : World → Prop
  | change {w' : World} (change : Change w w') : Progress w w'
  | opening {p : PassId} {pass : Pass} (found : w.passes[p]? = some pass)
      (fresh : pass.phase = .fresh) : Progress w (w.openPass p pass).1

abbrev Changes : World → World → Prop := Relation.ReflTransGen Change

abbrev Leads : World → World → Prop := Relation.ReflTransGen Progress

/-- A world that a run may come to. -/
def Reached (w : World) : Prop := ∃ arity blueprints, Leads { arity, blueprints } w

theorem Changes.leads {w w' : World} (h : Changes w w') : Leads w w' :=
  Relation.ReflTransGen.mono (fun _ _ => Progress.change) _ _ h

theorem reached_initial (arity : Arity) (blueprints : List Blueprint) :
    Reached { arity, blueprints } := ⟨arity, blueprints, .refl⟩

theorem Reached.leads {w w' : World} (h : Reached w) (l : Leads w w') : Reached w' := by
  obtain ⟨arity, blueprints, before⟩ := h
  exact ⟨arity, blueprints, before.trans l⟩

/-- What holds at the start and is kept by every change and every opening holds in every world that
is reached; while it is shown to be kept, the world before may be taken as reached. -/
theorem Reached.induction {P : World → Prop}
    (initial : ∀ arity blueprints, P { arity, blueprints })
    (step : ∀ w w', Reached w → P w → Progress w w' → P w') {w : World} (h : Reached w) : P w := by
  obtain ⟨arity, blueprints, l⟩ := h
  induction l with
  | refl => exact initial arity blueprints
  | tail before last ih => exact step _ _ ⟨arity, blueprints, before⟩ ih last

end Fanout.World
