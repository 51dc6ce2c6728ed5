/-!
Rosters: values under keys, in the order in which the keys came. A second value for a key takes
the place of the first. `find?` is the view through which the operations are told apart.
-/
namespace Fanout

structure Roster (κ : Type) (α : Type) where
  entries : List (κ × α) := []
  deriving DecidableEq, Repr

namespace Roster
variable {κ α : Type} [DecidableEq κ]

def lookup (key : κ) : List (κ × α) → Option α
  | [] => none
  | (k, x) :: others => if k = key then some x else lookup key others

/-- Replaces the value under a key, or adds both at the end. -/
def overwrite (key : κ) (value : α) : List (κ × α) → List (κ × α)
  | [] => [(key, value)]
  | (k, x) :: others =>
      if k = key then (key, value) :: others else (k, x) :: overwrite key value others

theorem lookup_overwrite (key other : κ) (value : α) (entries : List (κ × α)) :
    lookup other (overwrite key value entries) =
      if key = other then some value else lookup other entries := by
  induction entries with
  | nil => simp [overwrite, lookup]
  | cons e es ih =>
    obtain ⟨k, x⟩ := e
    by_cases hk : k = key
    · subst hk; by_cases ho : k = other <;> simp [overwrite, lookup, ho]
    · by_cases ho : k = other
      · subst ho; simp [overwrite, lookup, hk, Ne.symm hk]
      · simp [overwrite, lookup, hk, ho, ih]

theorem lookup_filter (key other : κ) (entries : List (κ × α)) :
    lookup other (entries.filter fun e => e.1 ≠ key) =
      if key = other then none else lookup other entries := by
  induction entries with
  | nil => simp [lookup]
  | cons e es ih =>
    obtain ⟨k, x⟩ := e
    by_cases hk : k = key
    · subst hk; by_cases ho : k = other <;> simp_all [lookup]
    · by_cases ho : k = other
      · subst ho; simp [lookup, hk, Ne.symm hk]
      · simp_all [lookup]

def find? (roster : Roster κ α) (key : κ) : Option α := lookup key roster.entries

def has (roster : Roster κ α) (key : κ) : Bool := (roster.find? key).isSome

def size (roster : Roster κ α) : Nat := roster.entries.length

def put (roster : Roster κ α) (key : κ) (value : α) : Roster κ α :=
  ⟨overwrite key value roster.entries⟩

def erase (roster : Roster κ α) (key : κ) : Roster κ α :=
  ⟨roster.entries.filter fun e => e.1 ≠ key⟩

def modify (roster : Roster κ α) (key : κ) (f : α → α) : Roster κ α :=
  match roster.find? key with
  | some x => roster.put key (f x)
  | none => roster

theorem find?_put (roster : Roster κ α) (key other : κ) (value : α) :
    (roster.put key value).find? other = if key = other then some value else roster.find? other :=
  lookup_overwrite key other value roster.entries

theorem find?_erase (roster : Roster κ α) (key other : κ) :
    (roster.erase key).find? other = if key = other then none else roster.find? other :=
  lookup_filter key other roster.entries

theorem find?_modify (roster : Roster κ α) (key other : κ) (f : α → α) :
    (roster.modify key f).find? other =
      if key = other then (roster.find? other).map f else roster.find? other := by
  unfold modify
  by_cases h : key = other
  · subst h
    cases hx : roster.find? key <;> simp [hx, find?_put]
  · cases hx : roster.find? key <;> simp [h, find?_put]

end Roster
end Fanout
