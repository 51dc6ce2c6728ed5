/-!
The permits of one pass. A permit is taken from the free ones or waited for; one that is given
back goes to whoever waits longest, and is free only when nobody waits.
-/
namespace Fanout

/-- The free permits, and the positions of the calls that wait for one, longest first. -/
structure Permits where
  free : Nat
  queue : List Nat := []
  deriving DecidableEq, Repr

namespace Permits

/-- There are never more permits than this. -/
def most : Nat := Nat.pow 2 61 - 1

/-- Permits for a limit, as many as there can be of them. -/
def ofLimit (limit : Nat) : Permits := { free := min limit most }

def take? (permits : Permits) : Option Permits :=
  if permits.free = 0 then none else some { permits with free := permits.free - 1 }

def enqueue (permits : Permits) (call : Nat) : Permits :=
  { permits with queue := permits.queue ++ [call] }

/-- Gives a permit back, and names the call that it goes to. -/
def giveBack (permits : Permits) : Permits × Option Nat :=
  match permits.queue with
  | [] => ({ permits with free := permits.free + 1 }, none)
  | call :: others => ({ permits with queue := others }, some call)

theorem take?_eq_none_iff (permits : Permits) : permits.take? = none ↔ permits.free = 0 := by
  simp [take?]

end Permits
end Fanout
