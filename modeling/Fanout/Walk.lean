import Fanout.World.Calls

/-!
Walks through registries. Neither a snapshot nor a purge is done at once: the party goes through
the entries of a registry one after another, in any order, and while it is on its way others go on
with what they do. What is done about one entry is done at once. An entry that was there at the
outset is come to, unless it has gone before; one that has come since may be come to or not.
-/
namespace Fanout

/-- What a party goes through a registry for. -/
inductive Purpose
  | snapshot (pass : PassId)
  | sweep (pass : PassId)
  | purge
  deriving DecidableEq, Repr

def Purpose.pass? : Purpose → Option PassId
  | snapshot p => some p
  | sweep p => some p
  | purge => none

/-- A party on its way through a registry. -/
structure Walk where
  dispatcher : DispatcherId
  purpose : Purpose
  ahead : List Key
  behind : List Key := []
  /-- What its snapshot has shown so far; to these handlers it holds strong references. -/
  found : Snapshot := ⟨[], 0⟩
  purged : Nat := 0
  deriving DecidableEq, Repr

namespace Walk

/-- One more key lies behind the party. -/
def goPast (walk : Walk) (key : Key) : Walk :=
  { walk with ahead := walk.ahead.erase key, behind := key :: walk.behind }

def meet (walk : Walk) (h : HandlerId) : Walk :=
  { walk with found := ⟨walk.found.live ++ [h], walk.found.dead⟩ }

def miss (walk : Walk) : Walk := { walk with found := ⟨walk.found.live, walk.found.dead + 1⟩ }

def takeOut (walk : Walk) : Walk := { walk with purged := walk.purged + 1 }

/-- The party may come to the key: it was there at the outset, or is there now. -/
def Reaches (walk : Walk) (w : World) (key : Key) : Prop :=
  key ∈ walk.ahead ∨ key ∉ walk.behind ∧ (w.registry walk.dispatcher).entries.has key = true

instance (walk : Walk) (w : World) (key : Key) : Decidable (walk.Reaches w key) :=
  inferInstanceAs (Decidable (_ ∨ _))

end Walk

namespace World

def keysOf (w : World) (d : DispatcherId) : List Key :=
  (w.registry d).entries.entries.map Prod.fst

def setOut (w : World) (d : DispatcherId) (purpose : Purpose) : Walk :=
  { dispatcher := d, purpose, ahead := w.keysOf d }

/-- A party comes to a key. If it finds a living handler there, it takes a reference to it for a
snapshot, and leaves the entry alone on a purge; a dead one is counted, and on a purge it is taken
out. -/
def visit (w : World) (walk : Walk) (key : Key) : World × Walk :=
  match (w.registry walk.dispatcher).find? key, walk.purpose with
  | none, _ => (w, walk.goPast key)
  | some entry, .snapshot _ =>
      if w.alive entry.handler then
        (w.retain entry.handler, (walk.goPast key).meet entry.handler)
      else (w, (walk.goPast key).miss)
  | some entry, _ =>
      if w.alive entry.handler then (w, walk.goPast key)
      else
        (w.setRegistry walk.dispatcher ((w.registry walk.dispatcher).remove key).2,
          (walk.goPast key).takeOut)

/-- With the handlers that it found alive, a pass gets a call for each of them. If the name of one
of them panics, the pass is closed and holds none. -/
def enterPass (w : World) (p : PassId) (d : DispatcherId) (live : List HandlerId) : World :=
  match w.readNames live with
  | .error payload => (w.releaseAll live).close p (.panicked payload)
  | .ok names =>
      let calls := live.zipWith (fun handler name => { handler, name }) names
      (w.setCalls p calls (w.settings d).permits).makeDue p (List.range calls.length)

/-- A party has come to all keys that it had to. After a snapshot with dead entries it sets out once
more, to purge them; then the pass is opened. -/
def arrive (w : World) (walk : Walk) : World × Option Walk :=
  let d := walk.dispatcher
  let opened (w : World) (p : PassId) : World :=
    (w.record (.opened p d walk.found.live walk.found.dead)).enterPass p d walk.found.live
  match walk.purpose with
  | .snapshot p =>
      if walk.found.dead = 0 then (opened w p, none)
      else (w, some { walk with purpose := .sweep p, ahead := w.keysOf d, behind := [] })
  | .sweep p => (opened (w.record (.purged d (some p) walk.purged)) p, none)
  | .purge => (w.record (.purged d none walk.purged), none)

end World

/-- A world, and the parties that are on their way through its registries. -/
structure Traffic where
  world : World
  walks : List Walk := []
  deriving DecidableEq, Repr

namespace Traffic

def visit (t : Traffic) (i : Nat) (walk : Walk) (key : Key) : Traffic :=
  ⟨(t.world.visit walk key).1, t.walks.set i (t.world.visit walk key).2⟩

def arrive (t : Traffic) (i : Nat) (walk : Walk) : Traffic :=
  let (w, next) := t.world.arrive walk
  match next with
  | some walk => ⟨w, t.walks.set i walk⟩
  | none => ⟨w, t.walks.eraseIdx i⟩

/-- What may be done next, by a party on its way or by somebody else. -/
inductive Stride
  | act (action : Action)
  | poll (p : PassId)
  | demand (name : String)
  | visit (i : Nat) (key : Key)
  | arrive (i : Nat)
  deriving DecidableEq, Repr

def go (t : Traffic) : Stride → Traffic
  | .act action => ⟨(t.world.perform action).1, t.walks⟩
  | .poll p =>
      match t.world.passes[p]? with
      | some pass =>
          if pass.phase = .fresh ∧ ∀ walk ∈ t.walks, walk.purpose.pass? ≠ some p then
            ⟨t.world, t.world.setOut pass.dispatcher (.snapshot p) :: t.walks⟩
          else t
      | none => t
  | .demand name =>
      match t.world.names.find? name with
      | some d => ⟨t.world, t.world.setOut d .purge :: t.walks⟩
      | none => t
  | .visit i key =>
      match t.walks[i]? with
      | some walk => if walk.Reaches t.world key then t.visit i walk key else t
      | none => t
  | .arrive i =>
      match t.walks[i]? with
      | some walk => if walk.ahead = [] then t.arrive i walk else t
      | none => t

/-- Everybody takes their steps in this order. -/
def run (t : Traffic) (strides : List Stride) : Traffic := strides.foldl go t

end Traffic
end Fanout
