import Fanout.Failure
import Fanout.Proofs.Layouts

/-! What an error is shown as tells which error it is. In either layout the shown shape of an error
gives back the error; the message of an aggregate leaves out how the calls went wrong, but it gives
back the total and the names of the handlers. -/
namespace Fanout
open Text

namespace CallError

theorem shape_proper (error : CallError) : error.shape.Proper := by
  cases error with
  | failed error => exact .single (by decide) (by decide) (.quoted _)
  | panicked info => exact .single (by decide) (by decide) (.quoted _)
  | canceled => exact .word (by decide)

theorem shape_injective : Function.Injective shape := by
  intro a b h
  cases a <;> cases b <;> simp_all [shape]

end CallError

namespace Failure

theorem shape_proper (failure : Failure) : failure.shape.Proper :=
  .pair (by decide) (by decide) (by decide) (.quoted _) failure.error.shape_proper

theorem shape_injective : Function.Injective shape := by
  rintro ⟨handler, error⟩ ⟨handler', error'⟩ h
  simp only [shape, Shape.record.injEq, true_and, List.cons.injEq, Prod.mk.injEq, and_true,
    Shape.quoted.injEq] at h
  obtain ⟨rfl, same⟩ := h
  rw [CallError.shape_injective same]

end Failure

namespace DispatchError

theorem shape_proper (error : DispatchError) : error.shape.Proper := by
  cases error with
  | invalidArgument reason => exact .single (by decide) (by decide) (.quoted _)
  | handlersFailed total failures =>
    have entries : ∀ shape ∈ failures.map Failure.shape, shape.Proper := by
      rintro shape member
      obtain ⟨failure, -, rfl⟩ := List.mem_map.mp member
      exact failure.shape_proper
    exact .pair (by decide) (by decide) (by decide) (Shape.proper_ofNat total) (.items entries)

theorem shape_injective : Function.Injective shape := by
  intro a b h
  cases a with
  | invalidArgument reason =>
    cases b with
    | invalidArgument reason' => simpa [shape] using h
    | handlersFailed _ _ => simp [shape] at h
  | handlersFailed total failures =>
    cases b with
    | invalidArgument _ => simp [shape] at h
    | handlersFailed total' failures' =>
      simp only [shape, Shape.record.injEq, true_and, List.cons.injEq, Prod.mk.injEq, and_true,
        Shape.items.injEq, Shape.ofNat, Shape.word.injEq] at h
      obtain ⟨totals, entries⟩ := h
      obtain rfl : total = total' := Nat.repr_injective totals
      rw [Failure.shape_injective.list_map entries]

/-- The names of the handlers, as a message lists them. -/
def roll (names : List String) : Shape := .items (names.map .quoted)

theorem roll_proper (names : List String) : (roll names).Proper := by
  refine .items fun shape member => ?_
  obtain ⟨name, -, rfl⟩ := List.mem_map.mp member
  exact .quoted name

theorem roll_injective : Function.Injective roll := by
  intro names names' h
  have quoted : Function.Injective Shape.quoted := fun _ _ => Shape.quoted.inj
  exact quoted.list_map (Shape.items.inj h)

/-- What an aggregate with this total and these handlers says. -/
def tally (total : Nat) (names : List String) : String :=
  toString names.length ++ " of " ++ toString total ++ " handlers failed: " ++ (roll names).inline

theorem message_handlersFailed (total : Nat) (failures : List Failure) :
    (handlersFailed total failures).message = tally total (failures.map Failure.handler) := by
  rw [tally, roll, List.map_map, List.length_map]
  rfl

theorem toList_tally (total : Nat) (names : List String) :
    (tally total names).toList = (toString names.length).toList ++
      ' ' :: ("of ".toList ++ ((toString total).toList ++
        ' ' :: ("handlers failed: ".toList ++ (roll names).inline.toList))) := by
  simp [tally]

theorem tally_inj {total total' : Nat} {names names' : List String}
    (h : tally total names = tally total' names') : total = total' ∧ names = names' := by
  have texts := congrArg String.toList h
  rw [toList_tally, toList_tally] at texts
  obtain ⟨-, rest⟩ := Shape.word_cancel (Shape.isWord_toString _) (Shape.isWord_toString _)
    (Shape.endsWord_cons (by decide) _) (Shape.endsWord_cons (by decide) _) texts
  obtain ⟨totals, rest⟩ := Shape.word_cancel (Shape.isWord_toString _) (Shape.isWord_toString _)
    (Shape.endsWord_cons (by decide) _) (Shape.endsWord_cons (by decide) _)
    (List.append_cancel_left (List.cons.inj rest).2)
  have rolls := String.toList_inj.mp (List.append_cancel_left (List.cons.inj rest).2)
  exact ⟨Nat.repr_injective totals,
    roll_injective (Shape.inline_injective (roll_proper names) (roll_proper names') rolls)⟩

/-- An aggregate begins with a number, and a refusal does not. -/
theorem invalidArgument_ne_tally (reason : String) (total : Nat) (names : List String) :
    (invalidArgument reason).message ≠ tally total names := by
  intro h
  obtain ⟨c, rest, digits, -⟩ := (Shape.isWord_toString names.length).head
  have digit : c.isDigit = true := by
    refine Shape.isDigit_of_mem_toString (n := names.length) ?_
    rw [digits]
    exact List.mem_cons_self
  have first : ("invalid argument: " ++ reason).toList.head? = some 'i' := by
    rw [String.toList_append]
    rfl
  have said : "invalid argument: " ++ reason = tally total names := h
  rw [said, toList_tally, digits, List.cons_append, List.head?_cons] at first
  obtain rfl := Option.some.inj first
  cases digit

/-- Two errors say the same just if they are refusals for the same reason or aggregates of the same
total and the same handlers in the same order, which can be read off what they say. -/
theorem message_identifies :
    (∀ a b : DispatchError, a.message = b.message ↔
      (∃ reason, a = invalidArgument reason ∧ b = invalidArgument reason) ∨
      ∃ total failures failures', a = handlersFailed total failures ∧
        b = handlersFailed total failures' ∧
        failures.map Failure.handler = failures'.map Failure.handler) ∧
    ∃ read : String → Option (Nat × Nat × List String), ∀ total failures,
      read (handlersFailed total failures).message =
        some (failures.length, total, failures.map Failure.handler) := by
  refine ⟨fun a b => ⟨fun h => ?_, ?_⟩, ?_⟩
  · cases a with
    | invalidArgument reason =>
      cases b with
      | invalidArgument reason' =>
        have same : reason = reason' := (String.append_right_inj "invalid argument: ").mp h
        exact .inl ⟨reason, rfl, same ▸ rfl⟩
      | handlersFailed total failures =>
        rw [message_handlersFailed] at h
        exact absurd h (invalidArgument_ne_tally reason total _)
    | handlersFailed total failures =>
      rw [message_handlersFailed] at h
      cases b with
      | invalidArgument reason => exact absurd h.symm (invalidArgument_ne_tally reason total _)
      | handlersFailed total' failures' =>
        rw [message_handlersFailed] at h
        obtain ⟨rfl, names⟩ := tally_inj h
        exact .inr ⟨total, failures, failures', rfl, rfl, names⟩
  · rintro (⟨reason, rfl, rfl⟩ | ⟨total, failures, failures', rfl, rfl, names⟩)
    · rfl
    · rw [message_handlersFailed, message_handlersFailed, names]
  · have told : Function.Injective (Function.uncurry tally) :=
      fun _ _ h => Prod.ext_iff.mpr (tally_inj h)
    refine ⟨fun text => (Function.partialInv (Function.uncurry tally) text).map fun told =>
      (told.2.length, told), fun total failures => ?_⟩
    have back := Function.partialInv_left told (total, failures.map Failure.handler)
    rw [Function.uncurry_apply_pair, ← message_handlersFailed] at back
    simp only [back, Option.map_some, List.length_map]

end DispatchError

/-- No two errors of a kind are shown alike, in neither layout. -/
theorem shown_injective :
    (Function.Injective fun error : DispatchError => error.shape.inline) ∧
    (Function.Injective fun error : DispatchError => error.shape.pretty) ∧
    (Function.Injective fun failure : Failure => failure.shape.inline) ∧
    (Function.Injective fun failure : Failure => failure.shape.pretty) ∧
    (Function.Injective fun error : CallError => error.shape.inline) ∧
    (Function.Injective fun error : CallError => error.shape.pretty) := by
  obtain ⟨errors, errors'⟩ :=
    Shape.layouts_injective DispatchError.shape_proper DispatchError.shape_injective
  obtain ⟨failures, failures'⟩ :=
    Shape.layouts_injective Failure.shape_proper Failure.shape_injective
  obtain ⟨calls, calls'⟩ :=
    Shape.layouts_injective CallError.shape_proper CallError.shape_injective
  exact ⟨errors, errors', failures, failures', calls, calls'⟩

end Fanout
