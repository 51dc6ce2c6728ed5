import Fanout.Roster

/-!
The registry of a dispatcher: which handlers it knows, each under the place where it lies, and
each stamped with the number of its registration. The registry holds its handlers weakly, so
whether one of them is still alive is asked from outside.
-/
namespace Fanout

/-- Handlers go by the names that their owner gave them. -/
abbrev HandlerId := String

/-- What a registry knows a handler by: its address, or nowhere for a handle without a handler. -/
inductive Key
  | place (address : Nat)
  | nowhere
  deriving DecidableEq, Repr

structure Registration where
  handler : HandlerId
  generation : UInt64
  deriving DecidableEq, Repr

structure Registry where
  entries : Roster Key Registration := {}
  /-- The generation that was handed out last. -/
  counter : UInt64 := 0
  deriving DecidableEq, Repr

/-- What a pass finds in a registry: the living handlers, and how many are dead. -/
structure Snapshot where
  live : List HandlerId
  dead : Nat
  deriving DecidableEq, Repr

namespace Registry

def size (registry : Registry) : Nat := registry.entries.size

def find? (registry : Registry) (key : Key) : Option Registration := registry.entries.find? key

def stamp (registry : Registry) : UInt64 × Registry :=
  (registry.counter + 1, { registry with counter := registry.counter + 1 })

/-- Writes an entry, over whatever stood under its key. -/
def write (registry : Registry) (key : Key) (entry : Registration) : Registry :=
  { registry with entries := registry.entries.put key entry }

/-- A registration: a fresh generation, and an entry that carries it. -/
def insert (registry : Registry) (key : Key) (handler : HandlerId) : UInt64 × Registry :=
  let (generation, stamped) := registry.stamp
  (generation, stamped.write key ⟨handler, generation⟩)

def remove (registry : Registry) (key : Key) : Bool × Registry :=
  if registry.entries.has key then
    (true, { registry with entries := registry.entries.erase key })
  else (false, registry)

def holds (registry : Registry) (key : Key) (generation : UInt64) : Bool :=
  match registry.find? key with
  | some entry => entry.generation = generation
  | none => false

/-- Removes the entry under a key only if it carries the generation. -/
def removeGeneration (registry : Registry) (key : Key) (generation : UInt64) : Bool × Registry :=
  if registry.holds key generation then
    (true, { registry with entries := registry.entries.erase key })
  else (false, registry)

/-- The living handlers in the order of their entries, and the number of the dead. -/
def snapshot (registry : Registry) (alive : HandlerId → Bool) : Snapshot :=
  let (live, dead) := registry.entries.entries.partition fun e => alive e.2.handler
  ⟨live.map (·.2.handler), dead.length⟩

/-- Keeps the entries of living handlers, and counts the others. -/
def purge (registry : Registry) (alive : HandlerId → Bool) : Nat × Registry :=
  let kept := registry.entries.entries.filter fun e => alive e.2.handler
  (registry.size - kept.length, { registry with entries := ⟨kept⟩ })

theorem live_snapshot (registry : Registry) (alive : HandlerId → Bool) :
    (registry.snapshot alive).live =
      (registry.entries.entries.filter fun e => alive e.2.handler).map (·.2.handler) := by
  simp only [snapshot, List.partition_eq_filter_filter]

theorem dead_snapshot (registry : Registry) (alive : HandlerId → Bool) :
    (registry.snapshot alive).dead =
      (registry.entries.entries.filter fun e => !alive e.2.handler).length := by
  simp only [snapshot, List.partition_eq_filter_filter]
  rfl

theorem find?_write (registry : Registry) (key other : Key) (entry : Registration) :
    (registry.write key entry).find? other =
      if key = other then some entry else registry.find? other :=
  registry.entries.find?_put key other entry

theorem find?_insert (registry : Registry) (key other : Key) (handler : HandlerId) :
    (registry.insert key handler).2.find? other =
      if key = other then some ⟨handler, registry.counter + 1⟩ else registry.find? other :=
  registry.entries.find?_put key other _

theorem find?_remove (registry : Registry) (key other : Key) :
    (registry.remove key).2.find? other = if key = other then none else registry.find? other := by
  unfold remove
  split
  · exact registry.entries.find?_erase key other
  · rename_i h
    split
    · rename_i hk; subst hk; simpa [Roster.has, find?] using h
    · rfl

theorem find?_removeGeneration (registry : Registry) (key other : Key) (generation : UInt64) :
    (registry.removeGeneration key generation).2.find? other =
      if key = other ∧ registry.holds key generation = true then none
      else registry.find? other := by
  unfold removeGeneration
  split
  · rename_i h
    simpa [h, find?] using registry.entries.find?_erase key other
  · rename_i h
    simp [h]

end Registry
end Fanout
