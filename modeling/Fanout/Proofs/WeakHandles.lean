import Fanout.Proofs.Lifetime
import Fanout.Proofs.Refinement
import Fanout.Proofs.Residence

/-! Weak handles. An operation with a weak handle is refused only where there is nothing left to
operate on, and a refusal leaves the world exactly as it was; as long as the handler lives, a weak
handle does whatever a strong reference does. The one thing that only a weak handle can do is to
take out the entry that a dead handler left behind. -/
namespace Fanout

/-- What is erased was one entry. -/
theorem Roster.size_erase {κ α : Type} [DecidableEq κ] {roster : Roster κ α}
    (distinct : roster.Distinct) {key : κ} {value : α} (found : roster.find? key = some value) :
    (roster.erase key).size + 1 = roster.size := by
  have member : key ∈ roster.keys := List.mem_map.mpr ⟨_, mem_of_lookup found, rfl⟩
  have left : (roster.erase key).keys = roster.keys.erase key := by
    rw [List.Nodup.erase_eq_filter distinct]
    simp only [keys, erase, List.filter_map]
    congr 2
    funext e
    by_cases same : e.1 = key <;> simp [same]
  have fewer := List.length_erase_add_one member
  rw [← left] at fewer
  simpa [keys, size] using fewer

namespace World

/-- There is no strong reference left to the handler of the handle; an empty handle has none. -/
def Spent (w : World) (handle : Option HandlerId) : Prop :=
  ∀ h handler, handle = some h → w.handlers.find? h = some handler → handler.strong = 0

def Enrolled (w : World) (d : DispatcherId) (handle : Option HandlerId) : Prop :=
  ∃ key entry, (w.registry d).find? key = some entry ∧ handle = some entry.handler

/-- The handle is empty, or refers to a handler whose place in memory it keeps. -/
def Shown (w : World) (handle : Option HandlerId) : Prop :=
  ∀ h, handle = some h → w.Resides h (w.keyOf h)

/-- The one entry under the key is taken out of the registry, and that is told as a removal of the
handler; all else in the world stays as it was. -/
structure TakesOut (w : World) (d : DispatcherId) (key : Key) (h : HandlerId) (w' : World) :
    Prop where
  gone : (w'.registry d).find? key = none
  others : ∀ other ≠ key, (w'.registry d).find? other = (w.registry d).find? other
  counter : (w'.registry d).counter = (w.registry d).counter
  count : (w'.dispatcher d).handlerCount + 1 = (w.dispatcher d).handlerCount
  world : w' = (w.setRegistry d (w'.registry d)).record (.unregistered d h true)

/-- What the two operations with a weak handle come to at a dispatcher. -/
structure Handles (w : World) (d : DispatcherId) (handle : Option HandlerId) : Prop where
  spent_iff : w.Spent handle ↔ ∀ h, handle = some h → ¬ w.Owned h ∧ ¬ w.Pending h
  register_refused_iff :
    (∃ reason, (w.registerWeak d handle).2 = .error (.invalidArgument reason)) ↔ w.Spent handle
  unregister_refused_iff :
    (∃ reason, (w.unregisterWeak d handle).2 = .error (.invalidArgument reason)) ↔
      w.Spent handle ∧ ¬ w.Enrolled d handle
  /-- A refusal changes neither registries nor guards, and nothing is recorded. -/
  register_atomic : ∀ error, (w.registerWeak d handle).2 = .error error →
    (w.registerWeak d handle).1 = w
  unregister_atomic : ∀ error, (w.unregisterWeak d handle).2 = .error error →
    (w.unregisterWeak d handle).1 = w
  register_agrees : ∀ h, handle = some h → ¬ w.Spent handle →
    w.registerWeak d handle = (w.register d h, .ok ())
  unregister_agrees : ∀ h, handle = some h → ¬ w.Spent handle →
    w.unregisterWeak d handle = ((w.unregister d h).1, .ok (w.unregister d h).2)
  /-- What a dead handler left behind can still be taken out. -/
  unregister_spent : ∀ h, handle = some h → w.Spent handle → w.Enrolled d handle →
    (w.unregisterWeak d handle).2 = .ok true ∧
      w.TakesOut d (w.keyOf h) h (w.unregisterWeak d handle).1

section
variable {w : World} {d : DispatcherId} {handle : Option HandlerId}

theorem shown_of_handleCalled {shown : Option Handle}
    (called : w.handleCalled shown = .ok handle) : w.Shown handle := by
  rintro h rfl
  rcases handleCalled_eq_ok called with none_called | ⟨_, handler, same, found, watched⟩
  · cases none_called
  · cases same
    exact ⟨handler, found, by simp [keyOf, found],
      (isReserved_iff ..).mpr (.inr (.inl watched))⟩

theorem Shown.spent_iff (shown : w.Shown handle) :
    w.Spent handle ↔ w.handleAlive handle = false := by
  cases handle with
  | none => exact ⟨fun _ => rfl, fun _ h handler same => by cases same⟩
  | some h =>
    obtain ⟨handler, found, -, -⟩ := shown h rfl
    have spent : w.Spent (some h) ↔ handler.strong = 0 := by
      constructor
      · exact fun all => all h handler rfl found
      · rintro none_left _ other ⟨⟩ same
        rw [found, Option.some.injEq] at same
        exact same ▸ none_left
    rw [spent]
    simp [handleAlive, World.alive, found, Handler.alive]

/-- Where a handler resides, it is enrolled by what stands under its own key. -/
theorem Placed.enrolled_iff (placed : w.Placed) (kept : w.keeps d = true) (shown : w.Shown handle) :
    w.Enrolled d handle ↔ (w.registry d).entries.has (w.handleKey handle) = true := by
  cases handle with
  | none =>
    have nowhere : (w.registry d).entries.has .nowhere = false :=
      (Roster.has_eq_false_iff ..).mpr (placed.find?_nowhere d)
    simp [Enrolled, handleKey, nowhere]
  | some h =>
    have resides := shown h rfl
    constructor
    · rintro ⟨key, entry, found, same⟩
      have here := ((placed.resides_iff kept found h).mpr (Option.some.inj same)).keyOf
      rw [handleKey, here]
      exact Option.isSome_of_eq_some found
    · intro has
      obtain ⟨entry, found⟩ := Option.isSome_iff_exists.mp has
      exact ⟨_, entry, found, congrArg some ((placed.resides_iff kept found h).mp resides)⟩

theorem unregisterWeak_of_absent (absent : (w.registry d).entries.has (w.handleKey handle) = false)
    (dead : w.handleAlive handle = false) :
    w.unregisterWeak d handle = (w, .error .emptyHandle) := by
  have nothing : (w.registry d).remove (w.handleKey handle) = (false, w.registry d) := by
    simp [Registry.remove, absent]
  simp [unregisterWeak, nothing, dead]

/-- Unless there is neither a living handler nor an entry, a weak handle is as good as a strong
reference. -/
theorem unregisterWeak_of_present {h : HandlerId}
    (present : (w.registry d).entries.has (w.keyOf h) = true ∨ w.alive h = true) :
    w.unregisterWeak d (some h) = ((w.unregister d h).1, .ok (w.unregister d h).2) := by
  have allowed : (!((w.registry d).remove (w.keyOf h)).1 && !w.alive h) = false := by
    rcases present with has | alive
    · simp [Registry.remove, has]
    · simp [alive]
  simp [unregisterWeak, unregister, handleKey, handleAlive, allowed]

theorem Placed.unregister_takesOut (placed : w.Placed) {h : HandlerId}
    (has : (w.registry d).entries.has (w.keyOf h) = true) :
    (w.unregister d h).2 = true ∧ w.TakesOut d (w.keyOf h) h (w.unregister d h).1 := by
  obtain ⟨entry, found⟩ := Option.isSome_iff_exists.mp has
  have there := lt_of_entry (Roster.mem_of_lookup found)
  have removed : (w.registry d).remove (w.keyOf h) =
      (true, ((w.registry d).remove (w.keyOf h)).2) := by
    simp [Registry.remove, has]
  have after : (w.unregister d h).1 =
      (w.setRegistry d ((w.registry d).remove (w.keyOf h)).2).record (.unregistered d h true) := by
    unfold unregister
    rw [removed]
  have left : (w.unregister d h).1.registry d = ((w.registry d).remove (w.keyOf h)).2 := by
    rw [after]
    exact registry_setRegistry w there _
  refine ⟨by unfold unregister; rw [removed], ?_, fun other different => ?_, ?_, ?_, ?_⟩
  · rw [left, Registry.find?_remove, if_pos rfl]
  · rw [left, Registry.find?_remove, if_neg different.symm]
  · rw [left]
    simp [Registry.remove, has]
  · have fewer := Roster.size_erase (placed.distinct d) found
    have written : ((w.unregister d h).1.registry d).size =
        ((w.registry d).entries.erase (w.keyOf h)).size := by
      rw [left]
      simp [Registry.remove, has, Registry.size]
    exact (congrArg (· + 1) written).trans fewer
  · rw [left, after]

theorem Reached.spent_iff (reached : w.Reached) (shown : w.Shown handle) :
    w.Spent handle ↔ ∀ h, handle = some h → ¬ w.Owned h ∧ ¬ w.Pending h := by
  rw [shown.spent_iff]
  cases handle with
  | none => simp [handleAlive]
  | some h =>
    have kept := reached.alive_iff_kept h
    rw [Kept] at kept
    simp only [handleAlive, Option.some.injEq, forall_eq', ← not_or, ← kept, Bool.not_eq_true]

/-- Nothing is alive or enrolled behind an empty handle. -/
theorem exists_of_present (present : w.Enrolled d handle ∨ ¬ w.Spent handle) :
    ∃ h, handle = some h := by
  rcases present with ⟨key, entry, -, same⟩ | living
  · exact ⟨_, same⟩
  · cases handle with
    | none => exact absurd (fun h handler same => by cases same) living
    | some h => exact ⟨h, rfl⟩

section
variable (reached : w.Reached) (kept : w.keeps d = true) (shown : w.Shown handle)
include shown

theorem Shown.registerWeak (d : DispatcherId) :
    (w.Spent handle → w.registerWeak d handle = (w, .error .emptyHandle)) ∧
      ∀ h, handle = some h → ¬ w.Spent handle →
        w.registerWeak d handle = (w.register d h, .ok ()) := by
  refine ⟨fun dead => registerWeak_of_dead (shown.spent_iff.mp dead) d, ?_⟩
  rintro h rfl living
  exact registerWeak_of_alive (by simpa [shown.spent_iff, handleAlive] using living) d

include reached kept

theorem Shown.unregisterWeak :
    (w.Spent handle → ¬ w.Enrolled d handle →
        w.unregisterWeak d handle = (w, .error .emptyHandle)) ∧
      ∀ h, handle = some h → w.Enrolled d handle ∨ ¬ w.Spent handle →
        w.unregisterWeak d handle = ((w.unregister d h).1, .ok (w.unregister d h).2) := by
  have enrolled := reached.placed.enrolled_iff kept shown
  constructor
  · intro dead absent
    rw [enrolled, Bool.not_eq_true] at absent
    exact unregisterWeak_of_absent absent (shown.spent_iff.mp dead)
  · rintro h rfl present
    refine unregisterWeak_of_present (present.imp enrolled.mp fun living => ?_)
    simpa [shown.spent_iff, handleAlive] using living

theorem Shown.handles : w.Handles d handle := by
  obtain ⟨register_refuses, registers⟩ := shown.registerWeak d
  obtain ⟨unregister_refuses, unregisters⟩ := shown.unregisterWeak reached kept
  have enrolled := reached.placed.enrolled_iff kept shown
  refine ⟨reached.spent_iff shown, ⟨?_, ?_⟩, ⟨?_, ?_⟩, ?_, ?_, registers, ?_, ?_⟩
  · rintro ⟨reason, refused⟩
    by_contra living
    obtain ⟨h, same⟩ := exists_of_present (d := d) (.inr living)
    simp [registers h same living] at refused
  · intro dead
    exact ⟨_, by rw [register_refuses dead]; rfl⟩
  · rintro ⟨reason, refused⟩
    by_contra present
    have present : w.Enrolled d handle ∨ ¬ w.Spent handle := by tauto
    obtain ⟨h, same⟩ := exists_of_present present
    simp [unregisters h same present] at refused
  · rintro ⟨dead, absent⟩
    exact ⟨_, by rw [unregister_refuses dead absent]; rfl⟩
  · exact fun error => registerWeak_refused
  · intro error refused
    by_cases present : w.Enrolled d handle ∨ ¬ w.Spent handle
    · obtain ⟨h, same⟩ := exists_of_present present
      simp [unregisters h same present] at refused
    · rw [not_or, not_not] at present
      rw [unregister_refuses present.2 present.1]
  · exact fun h same living => unregisters h same (.inr living)
  · rintro h rfl - present
    rw [unregisters h rfl (.inl present)]
    obtain ⟨removed, takes⟩ := reached.placed.unregister_takesOut (enrolled.mp present)
    exact ⟨congrArg _ removed, takes⟩

end

end

end World

/-- In every run, and for every weak handle that somebody can show to a dispatcher that is still
there. -/
theorem weak_handles_exact (arity : Arity) (blueprints : List Blueprint) (moves : List Move)
    (d : DispatcherId) (handle : Option HandlerId)
    (kept : ((Machine.idle arity blueprints).run moves).world.keeps d = true)
    (shown : ((Machine.idle arity blueprints).run moves).world.Shown handle) :
    ((Machine.idle arity blueprints).run moves).world.Handles d handle :=
  shown.handles (Machine.run_reached arity blueprints moves) kept

/-- Of two dispatchers, one still has the entry of a handler that is gone. -/
def spentMoves : List Move :=
  [.act (.createDispatcher (some "d") .usual), .act (.createDispatcher (some "e") .usual),
    .act (.createHandler (some "a") 0 none), .act (.createHandler (some "b") 0 none),
    .act (.register (some "d") (some "a")), .act (.register (some "d") (some "b")),
    .act (.drop (some "a"))]

/-- The weak handle of the dead handler takes its entry out at the one and is refused at the other,
and it registers at neither. -/
theorem weak_handles_exact_spent :
    let w := ((Machine.idle .simple [{}]).run spentMoves).world
    (w.keeps 0 = true ∧ w.keeps 1 = true ∧ w.Shown (some "a")) ∧
    (w.unregisterWeak 0 (some "a")).2 = .ok true ∧
    ((w.unregisterWeak 0 (some "a")).1.dispatcher 0).handlerCount = 1 ∧
    (∃ reason, (w.unregisterWeak 1 (some "a")).2 = .error (.invalidArgument reason)) ∧
    (w.unregisterWeak 1 (some "a")).1 = w ∧
    ∃ reason, (w.registerWeak 0 (some "a")).2 = .error (.invalidArgument reason) := by
  intro w
  have kept : w.keeps 0 = true := by decide +kernel
  have kept' : w.keeps 1 = true := by decide +kernel
  have called : w.handleCalled (some (.of "a")) = .ok (some "a") := by decide +kernel
  have shown := World.shown_of_handleCalled called
  have first := weak_handles_exact .simple [{}] spentMoves 0 (some "a") kept shown
  have second := weak_handles_exact .simple [{}] spentMoves 1 (some "a") kept' shown
  have spent : w.Spent (some "a") := shown.spent_iff.mpr (by decide +kernel)
  have enrolled : w.Enrolled 0 (some "a") :=
    ⟨.place 1, ⟨"a", 1⟩, by decide +kernel, rfl⟩
  have absent : ¬ w.Enrolled 1 (some "a") := by
    rintro ⟨key, entry, found, -⟩
    have empty : (w.registry 1).entries.entries = [] := by decide +kernel
    have member := Roster.mem_of_lookup found
    rw [empty] at member
    cases member
  obtain ⟨removed, takes⟩ := first.unregister_spent "a" rfl spent enrolled
  obtain ⟨reason, refused⟩ := second.unregister_refused_iff.mpr ⟨spent, absent⟩
  refine ⟨⟨kept, kept', shown⟩, removed, ?_, ⟨reason, refused⟩,
    second.unregister_atomic _ refused, first.register_refused_iff.mpr spent⟩
  have two : (w.dispatcher 0).handlerCount = 2 := by decide +kernel
  have fewer := takes.count
  rw [two] at fewer
  exact Nat.succ.inj fewer

end Fanout
