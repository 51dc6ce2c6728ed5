import Mathlib.Logic.Function.Basic
import Fanout.World.Registration

/-!
Races. Any number of parties work at once on the registry of one dispatcher, each through a list of
tasks of its own. What a task does to the registry, it does in one step that nothing comes between,
but for a registration, which takes two: it gets its generation first, and writes its entry later.
While a race lasts, no handler is made or reclaimed.

A race is for a table of entries that carry stamps. In the registry of a dispatcher, the stamps are
generations. In a table of origins, an entry is stamped with the very task that wrote it; this is
what a registry is measured against.
-/
namespace Fanout

structure TaskId where
  party : Nat
  position : Nat
  deriving DecidableEq, Repr

inductive GuardName
  | given (name : String)
  | made (task : TaskId)
  deriving DecidableEq, Repr

inductive Task
  | register (handler : HandlerId)
  | registerWeak (handle : Option HandlerId)
  | unregister (handler : HandlerId)
  | unregisterWeak (handle : Option HandlerId)
  | subscribe (handler : HandlerId)
  | unsubscribe (guard : GuardName)
  | dropGuard (guard : GuardName)
  deriving DecidableEq, Repr

inductive Errand
  | insert (key : Key) (handler : HandlerId)
  | remove (key : Key)
  | release (guard : GuardName)
  /-- A handle without a living handler is not registered. -/
  | nothing
  deriving DecidableEq, Repr

namespace Task

def errand (w : World) : Task → Errand
  | register h => .insert (w.keyOf h) h
  | registerWeak (some h) => if w.alive h then .insert (w.keyOf h) h else .nothing
  | registerWeak none => .nothing
  | unregister h => .remove (w.keyOf h)
  | unregisterWeak handle => .remove (w.handleKey handle)
  | subscribe h => .insert (w.keyOf h) h
  | unsubscribe guard => .release guard
  | dropGuard guard => .release guard

/-- What the task is answered, if this is whether it removed an entry. -/
def answer (w : World) (removed : Bool) : Task → Answer
  | register _ => .nothing
  | registerWeak handle => if w.handleAlive handle then .done else .failed .emptyHandle
  | unregister _ => .flag removed
  | unregisterWeak handle =>
      if !removed && !w.handleAlive handle then .failed .emptyHandle else .flag removed
  | subscribe _ => .nothing
  | unsubscribe _ => .flag removed
  | dropGuard _ => .nothing

def subscribes : Task → Bool
  | subscribe _ => true
  | _ => false

end Task

/-- What can be done to a table, each in one step. -/
structure Table (τ γ : Type) where
  stamp : TaskId → τ → γ × τ
  write : Key → HandlerId → γ → τ → τ
  remove : Key → τ → Bool × τ
  removeStamped : Key → γ → τ → Bool × τ

def Registry.table : Table Registry UInt64 where
  stamp _ registry := registry.stamp
  write key handler generation registry := registry.write key ⟨handler, generation⟩
  remove key registry := registry.remove key
  removeStamped key generation registry := registry.removeGeneration key generation

/-- Where an entry comes from. -/
inductive Origin
  /-- It was there before the race, and carries this generation. -/
  | before (generation : UInt64)
  | task (id : TaskId)
  deriving DecidableEq, Repr

/-- For each key the handler that stands there, and who wrote this. -/
abbrev Origins := Key → Option (HandlerId × Origin)

def Origins.table : Table Origins Origin where
  stamp id origins := (.task id, origins)
  write key handler origin origins := Function.update origins key (some (handler, origin))
  remove key origins := ((origins key).isSome, Function.update origins key none)
  removeStamped key origin origins :=
    if (origins key).map Prod.snd = some origin then (true, Function.update origins key none)
    else (false, origins)

/-- What a guard remembers of its registration. -/
structure Receipt (γ : Type) where
  key : Key
  stamp : γ
  deriving DecidableEq, Repr

structure Party (γ : Type) where
  tasks : List Task
  /-- What it got for the first of these, if it is half done. -/
  stamp : Option γ := none
  answers : List Answer := []
  deriving DecidableEq, Repr

structure Race (τ γ : Type) where
  table : τ
  /-- The guards that were not let go. -/
  guards : GuardName → Option (Receipt γ)
  parties : Nat → Party γ
  /-- The stamps that were handed out, the latest first. -/
  stamps : List (TaskId × γ) := []

namespace Race
variable {τ γ : Type} (table : Table τ γ) (w : World)

def finish (race : Race τ γ) (i : Nat) (task : Task) (removed : Bool) : Race τ γ :=
  let party := race.parties i
  { race with
    parties := Function.update race.parties i
      ⟨party.tasks.tail, none, party.answers ++ [task.answer w removed]⟩ }

/-- The first task of a party goes on by one step. -/
def carryOut (race : Race τ γ) (i : Nat) (task : Task) : Race τ γ :=
  let party := race.parties i
  let id : TaskId := ⟨i, party.answers.length⟩
  match task.errand w, party.stamp with
  | .insert _ _, none =>
      let (stamp, stamped) := table.stamp id race.table
      { race with
        table := stamped
        parties := Function.update race.parties i { party with stamp := some stamp }
        stamps := (id, stamp) :: race.stamps }
  | .insert key handler, some stamp =>
      { race.finish w i task false with
        table := table.write key handler stamp race.table
        guards :=
          if task.subscribes then Function.update race.guards (.made id) (some ⟨key, stamp⟩)
          else race.guards }
  | .remove key, _ =>
      let (removed, left) := table.remove key race.table
      { race.finish w i task removed with table := left }
  | .release name, _ =>
      match race.guards name with
      | some receipt =>
          let (removed, left) := table.removeStamped receipt.key receipt.stamp race.table
          { race.finish w i task removed with
            table := left
            guards := Function.update race.guards name none }
      | none => race.finish w i task false
  | .nothing, _ => race.finish w i task false

def step (race : Race τ γ) (i : Nat) : Race τ γ :=
  match (race.parties i).tasks with
  | task :: _ => race.carryOut table w i task
  | [] => race

/-- The parties take one step after another, in this order. -/
def run (race : Race τ γ) (schedule : List Nat) : Race τ γ := schedule.foldl (step table w) race

def IsOver (race : Race τ γ) : Prop := ∀ i, (race.parties i).tasks = []

end Race

namespace World

/-- The guards of a dispatcher before a race. -/
def guard? (w : World) (d : DispatcherId) : GuardName → Option Guard
  | .given name => (w.guards.find? name).filter fun guard => guard.dispatcher = some d
  | .made _ => none

def race (w : World) (d : DispatcherId) (lists : List (List Task)) : Race Registry UInt64 :=
  { table := w.registry d
    guards := fun name => (w.guard? d name).map fun guard => ⟨guard.key, guard.generation⟩
    parties := fun i => { tasks := lists.getD i [] } }

def tracedRace (w : World) (d : DispatcherId) (lists : List (List Task)) : Race Origins Origin :=
  { table := fun key =>
      ((w.registry d).find? key).map fun entry => (entry.handler, .before entry.generation)
    guards := fun name => (w.guard? d name).map fun guard => ⟨guard.key, .before guard.generation⟩
    parties := fun i => { tasks := lists.getD i [] } }

end World

/-- What comes of tasks that are done one after another, each of them at once. -/
structure Sequel where
  world : World
  guards : GuardName → Option Guard
  answers : Nat → List Answer := fun _ => []

namespace Sequel

def reply (s : Sequel) (i : Nat) (after : World) (answer : Answer) : Sequel :=
  { s with world := after, answers := Function.update s.answers i (s.answers i ++ [answer]) }

def doTask (d : DispatcherId) (i : Nat) (s : Sequel) : Task → Sequel
  | .register h => s.reply i (s.world.register d h) .nothing
  | .registerWeak handle =>
      let (after, outcome) := s.world.registerWeak d handle
      s.reply i after (.ofExcept (fun _ => .done) outcome)
  | .unregister h =>
      let (after, removed) := s.world.unregister d h
      s.reply i after (.flag removed)
  | .unregisterWeak handle =>
      let (after, outcome) := s.world.unregisterWeak d handle
      s.reply i after (.ofExcept .flag outcome)
  | .subscribe h =>
      let (after, guard) := s.world.subscribe d h
      { s.reply i after .nothing with
        guards := Function.update s.guards (.made ⟨i, (s.answers i).length⟩) (some guard) }
  | .unsubscribe name =>
      match s.guards name with
      | some guard =>
          let (after, removed) := s.world.unsubscribe guard
          { s.reply i after (.flag removed) with guards := Function.update s.guards name none }
      | none => s.reply i s.world (.flag false)
  | .dropGuard name =>
      match s.guards name with
      | some guard =>
          { s.reply i (s.world.dropGuard guard) .nothing with
            guards := Function.update s.guards name none }
      | none => s.reply i s.world .nothing

end Sequel

/-- The parties take turns in this order, each with its whole list of tasks. -/
def World.inTurn (w : World) (d : DispatcherId) (lists : List (List Task)) (order : List Nat) :
    Sequel :=
  order.foldl (fun s i => (lists.getD i []).foldl (Sequel.doTask d i) s)
    { world := w, guards := w.guard? d }

end Fanout
