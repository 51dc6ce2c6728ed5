import Fanout.World.Rousing

/-!
Registering and unregistering handlers in a world. Each operation comes for a strong reference,
which cannot fail, and for a weak handle, which is refused if its handler does not live; a weak
handle of a dead handler still removes the entry that this handler left behind. None of this
touches a pass.
-/
namespace Fanout.World

def handleAlive (w : World) (handle : Option HandlerId) : Bool :=
  match handle with
  | some h => w.alive h
  | none => false

/-- The key behind a handle; there is none behind an empty one. -/
def handleKey (w : World) (handle : Option HandlerId) : Key :=
  match handle with
  | some h => w.keyOf h
  | none => .nowhere

/-- Puts a handler into a registry, in place of its earlier registration. -/
def insert (w : World) (d : DispatcherId) (h : HandlerId) : UInt64 × World :=
  let (generation, registry) := (w.registry d).insert (w.keyOf h) h
  (generation, w.setRegistry d registry)

def register (w : World) (d : DispatcherId) (h : HandlerId) : World :=
  let (generation, w) := w.insert d h
  w.record (.registered d h generation)

def registerWeak (w : World) (d : DispatcherId) (handle : Option HandlerId) :
    World × Except DispatchError Unit :=
  match handle with
  | some h =>
      if w.alive h then
        let (generation, w) := w.insert d h
        (w.record (.registered d h generation), .ok ())
      else (w, .error .emptyHandle)
  | none => (w, .error .emptyHandle)

def unregister (w : World) (d : DispatcherId) (h : HandlerId) : World × Bool :=
  let (removed, registry) := (w.registry d).remove (w.keyOf h)
  ((w.setRegistry d registry).record (.unregistered d h removed), removed)

def unregisterWeak (w : World) (d : DispatcherId) (handle : Option HandlerId) :
    World × Except DispatchError Bool :=
  let (removed, registry) := (w.registry d).remove (w.handleKey handle)
  let removedFrom := w.setRegistry d registry
  if !removed && !w.handleAlive handle then (removedFrom, .error .emptyHandle)
  else
    match handle with
    | some h => (removedFrom.record (.unregistered d h removed), .ok removed)
    | none => (removedFrom, .ok removed)

theorem passes_registerWeak (w : World) (d : DispatcherId) (handle : Option HandlerId) :
    (w.registerWeak d handle).1.passes = w.passes := by
  unfold registerWeak
  split
  · split <;> rfl
  · rfl

theorem passes_unregisterWeak (w : World) (d : DispatcherId) (handle : Option HandlerId) :
    (w.unregisterWeak d handle).1.passes = w.passes := by
  unfold unregisterWeak
  dsimp only
  split
  · rfl
  · split <;> rfl

def subscribe (w : World) (d : DispatcherId) (h : HandlerId) : World × Guard :=
  let (generation, subscribed) := w.insert d h
  (subscribed.record (.subscribed d h generation), ⟨some d, w.keyOf h, generation⟩)

/-- Lets a guard go: the registration that it stands for is removed, and no other. What is left is
a guard that stands for nothing. -/
def releaseGuard (w : World) (guard : Guard) : World × Guard × Bool :=
  let spent := { guard with dispatcher := none }
  match guard.dispatcher with
  | some d =>
      if w.keeps d then
        let (removed, registry) := (w.registry d).removeGeneration guard.key guard.generation
        ((w.setRegistry d registry).record (.released d guard.key guard.generation removed),
          spent, removed)
      else (w.record (.released d guard.key guard.generation false), spent, false)
  | none => (w, spent, false)

def dropGuard (w : World) (guard : Guard) : World := (w.releaseGuard guard).1

/-- Lets a guard go on demand, and drops what is left of it. -/
def unsubscribe (w : World) (guard : Guard) : World × Bool :=
  let (released, spent, removed) := w.releaseGuard guard
  (released.dropGuard spent, removed)

theorem passes_dropGuard (w : World) (guard : Guard) : (w.dropGuard guard).passes = w.passes := by
  obtain ⟨_ | d, key, generation⟩ := guard
  · rfl
  · unfold dropGuard releaseGuard
    dsimp only
    split <;> rfl

/-- A guard that has let go does nothing when it is dropped. -/
theorem unsubscribe_eq (w : World) (guard : Guard) :
    w.unsubscribe guard = (w.dropGuard guard, (w.releaseGuard guard).2.2) := by
  obtain ⟨_ | d, key, generation⟩ := guard
  · rfl
  · unfold unsubscribe dropGuard releaseGuard
    by_cases h : w.keeps d = true <;> simp only [h] <;> rfl

def purge (w : World) (d : DispatcherId) (pass : Option PassId) : World × Nat :=
  let (count, registry) := (w.registry d).purge w.alive
  ((w.setRegistry d registry).record (.purged d pass count), count)

end Fanout.World
