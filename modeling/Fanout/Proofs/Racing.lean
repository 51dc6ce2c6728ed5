import Fanout.Proofs.Guards
import Fanout.Proofs.Paces
import Fanout.Proofs.Refinement

/-! Races for a registry. Generations are as good as origins: a race for a registry goes as the same
race for a table of origins does, whatever the order in which generations are handed out and reach
the registry, as long as none is handed out twice. -/
namespace Fanout

theorem rel_imp {α β : Type} {r s : α → β → Prop} {x : Option α} {y : Option β}
    (rel : Option.Rel r x y) (imp : ∀ a b, r a b → s a b) : Option.Rel s x y := by
  cases rel with
  | none => exact .none
  | some h => exact .some (imp _ _ h)

theorem eq_none_of_rel {α β : Type} {r : α → β → Prop} {y : Option β}
    (rel : Option.Rel r none y) : y = none := by
  cases rel
  rfl

theorem rel_isSome {α β : Type} {r : α → β → Prop} {x : Option α} {y : Option β}
    (rel : Option.Rel r x y) : x.isSome = y.isSome := by
  cases rel <;> rfl

/-- What agrees with the same third thing agrees with each other. -/
theorem rel_of_common {α β γ δ : Type} {r : α → γ → Prop} {s : δ → γ → Prop} {t : α → β → Prop}
    {f : β → δ} {x : Option α} {y : Option β} {z : Option γ} (left : Option.Rel r x z)
    (right : Option.Rel s (y.map f) z)
    (agree : ∀ a b c, y = some b → r a c → s (f b) c → t a b) : Option.Rel t x y := by
  cases y with
  | none =>
    rw [eq_none_of_rel right] at left
    cases left
    exact .none
  | some b =>
    cases right with
    | some right =>
      cases left with
      | some left => exact .some (agree _ _ _ rfl left right)

/-- Two views still agree after the same key was written, or cleared, in both. -/
theorem rel_update {κ α β : Type} [DecidableEq κ] {r : α → β → Prop} {f f' : κ → Option α}
    {g : κ → Option β} {x : Option α} {y : Option β} {key : κ}
    (rel : ∀ k, Option.Rel r (f k) (g k)) (written : ∀ k, f' k = if key = k then x else f k)
    (now : Option.Rel r x y) (k : κ) : Option.Rel r (f' k) (Function.update g key y k) := by
  rw [written]
  by_cases same : key = k
  · subst same
    simpa using now
  · rw [if_neg same, Function.update_of_ne (Ne.symm same)]
    exact rel k

inductive Stands (start : UInt64) (stamps : List (TaskId × UInt64)) : Origin → UInt64 → Prop
  | before (generation : UInt64) (early : generation.toNat ≤ start.toNat) :
      Stands start stamps (.before generation) generation
  | task (id : TaskId) (generation : UInt64) (stamped : (id, generation) ∈ stamps) :
      Stands start stamps (.task id) generation

/-- A generation goes on standing for its origin when the next one is handed out. -/
theorem Stands.cons {start : UInt64} {stamps : List (TaskId × UInt64)} {origin : Origin}
    {generation : UInt64} (stands : Stands start stamps origin generation)
    (e : TaskId × UInt64) : Stands start (e :: stamps) origin generation := by
  cases stands with
  | before generation early => exact .before _ early
  | task id generation stamped => exact .task _ _ (List.mem_cons_of_mem _ stamped)

def SameEntry (start : UInt64) (stamps : List (TaskId × UInt64)) (entry : Registration)
    (traced : HandlerId × Origin) : Prop :=
  entry.handler = traced.1 ∧ Stands start stamps traced.2 entry.generation

def SameReceipt (start : UInt64) (stamps : List (TaskId × UInt64)) (receipt : Receipt UInt64)
    (traced : Receipt Origin) : Prop :=
  receipt.key = traced.key ∧ Stands start stamps traced.stamp receipt.stamp

namespace Party
variable {γ : Type}

/-- The task was begun: it is done, or it is the first that is left, and has its stamp. -/
def HasBegun (party : Party γ) (position : Nat) : Prop :=
  position < party.answers.length ∨ position = party.answers.length ∧ party.stamp.isSome = true

/-- The party has done as much as the other, and holds the stamp of the same task. -/
structure Mirrors (party : Party UInt64) (i : Nat) (stamps : List (TaskId × UInt64))
    (traced : Party Origin) : Prop where
  tasks : party.tasks = traced.tasks
  answers : party.answers = traced.answers
  stamp : Option.Rel
    (fun generation origin => origin = .task ⟨i, party.answers.length⟩ ∧
      (⟨i, party.answers.length⟩, generation) ∈ stamps) party.stamp traced.stamp

end Party

namespace Race

/-- The stamps that were handed out are the next generations, each for a task of its own. -/
structure Stamped (start : UInt64) (race : Race Registry UInt64) : Prop where
  counter : race.table.counter.toNat = start.toNat + race.stamps.length
  new : ∀ e ∈ race.stamps, start.toNat < e.2.toNat ∧ e.2.toNat ≤ race.table.counter.toNat
  generations : (race.stamps.map Prod.snd).Nodup
  tasks : (race.stamps.map Prod.fst).Nodup
  begun : ∀ e ∈ race.stamps, (race.parties e.1.party).HasBegun e.1.position

/-- The race for a registry is where the same race for a table of origins is. -/
structure Mirrors (start : UInt64) (race : Race Registry UInt64) (traced : Race Origins Origin) :
    Prop where
  stamped : race.Stamped start
  distinct : race.table.entries.Distinct
  entries : ∀ key,
    Option.Rel (SameEntry start race.stamps) (race.table.find? key) (traced.table key)
  guards : ∀ name,
    Option.Rel (SameReceipt start race.stamps) (race.guards name) (traced.guards name)
  /-- A guard that was made in the race owns the entry of the task that made it. -/
  made : ∀ id receipt, traced.guards (.made id) = some receipt → receipt.stamp = .task id
  parties : ∀ i, (race.parties i).Mirrors i race.stamps (traced.parties i)

variable {start : UInt64} {race : Race Registry UInt64} {traced : Race Origins Origin}

/-- Generations tell origins apart. -/
theorem Stamped.origin_iff (stamped : race.Stamped start) {origin origin' : Origin}
    {generation generation' : UInt64} (stands : Stands start race.stamps origin generation)
    (stands' : Stands start race.stamps origin' generation') :
    generation = generation' ↔ origin = origin' := by
  cases stands with
  | before generation early =>
    cases stands' with
    | before generation' early' => simp
    | task id' generation' member' =>
      have new := (stamped.new _ member').1
      simp only [reduceCtorEq, iff_false]
      rintro rfl
      exact absurd new (not_lt.mpr early)
  | task id generation member =>
    cases stands' with
    | before generation' early' =>
      have new := (stamped.new _ member).1
      simp only [reduceCtorEq, iff_false]
      rintro rfl
      exact absurd new (not_lt.mpr early')
    | task id' generation' member' =>
      rw [Origin.task.injEq]
      constructor
      · rintro rfl
        exact congrArg Prod.fst (List.inj_on_of_nodup_map stamped.generations member member' rfl)
      · rintro rfl
        exact congrArg Prod.snd (List.inj_on_of_nodup_map stamped.tasks member member' rfl)

variable (w : World)

theorem Mirrors.finish (mirrors : race.Mirrors start traced) {i : Nat} {task : Task}
    {removed : Bool} {left : Registry} {origins : Origins}
    {guards : GuardName → Option (Receipt UInt64)} {guards' : GuardName → Option (Receipt Origin)}
    (counter : left.counter = race.table.counter) (distinct : left.entries.Distinct)
    (entries : ∀ key, Option.Rel (SameEntry start race.stamps) (left.find? key) (origins key))
    (receipts : ∀ name, Option.Rel (SameReceipt start race.stamps) (guards name) (guards' name))
    (made : ∀ id receipt, guards' (.made id) = some receipt → receipt.stamp = .task id) :
    Mirrors start { race.finish w i task removed with table := left, guards := guards }
      { traced.finish w i task removed with table := origins, guards := guards' } := by
  obtain ⟨⟨count, new, generations, tasks, begun⟩, -, -, -, -, parties⟩ := mirrors
  refine ⟨⟨?_, ?_, generations, tasks, ?_⟩, distinct, entries, receipts, made, ?_⟩
  · exact counter ▸ count
  · exact counter ▸ new
  · intro e member
    have before := begun e member
    by_cases same : e.1.party = i
    · subst same
      refine .inl ?_
      simp only [Race.finish, Function.update_self, List.length_append, List.length_singleton]
      rcases before with done | ⟨first, -⟩ <;> omega
    · simpa only [Race.finish, Function.update_of_ne same] using before
  · intro j
    by_cases same : j = i
    · subst same
      obtain ⟨same_tasks, same_answers, -⟩ := parties j
      simp only [Race.finish, Function.update_self]
      exact ⟨by rw [same_tasks], by rw [same_answers], .none⟩
    · simpa only [Race.finish, Function.update_of_ne same] using parties j

/-- What is handed out next is a generation of its own, for a task that has none yet. -/
theorem Stamped.begin (stamped : race.Stamped start) {i : Nat} {task : Task} {key : Key}
    {h : HandlerId} (errand : task.errand w = .insert key h)
    (fresh : (race.parties i).stamp = none)
    (bound : start.toNat + race.stamps.length + 1 < 2 ^ 64) :
    (race.carryOut Registry.table w i task).Stamped start := by
  obtain ⟨count, new, generations, tasks, begun⟩ := stamped
  have next : (race.table.counter + 1).toNat = race.table.counter.toNat + 1 := by
    rw [UInt64.toNat_add]
    simp only [UInt64.toNat_one]
    omega
  have unstamped : ∀ e ∈ race.stamps, e.1 ≠ ⟨i, (race.parties i).answers.length⟩ := by
    rintro e member same
    have before := begun e member
    rw [same] at before
    simp [Party.HasBegun, fresh] at before
  simp only [carryOut, errand, fresh, Registry.table, Registry.stamp]
  refine ⟨?counter, ?new, ?generations, ?tasks, ?begun⟩
  case counter =>
    simp only [next, count, List.length_cons]
    omega
  case new =>
    simp only [List.forall_mem_cons, next]
    refine ⟨by omega, fun e member => ?_⟩
    have := new e member
    omega
  case generations =>
    rw [List.map_cons, List.nodup_cons]
    refine ⟨fun again => ?_, generations⟩
    obtain ⟨e, member, same⟩ := List.mem_map.mp again
    have := (new e member).2
    rw [same, next] at this
    omega
  case tasks =>
    rw [List.map_cons, List.nodup_cons]
    refine ⟨fun again => ?_, tasks⟩
    obtain ⟨e, member, same⟩ := List.mem_map.mp again
    exact unstamped e member same
  case begun =>
    simp only [List.forall_mem_cons]
    refine ⟨.inr (by simp), fun e member => ?_⟩
    have before := begun e member
    by_cases same : e.1.party = i
    · subst same
      simp only [Function.update_self]
      rcases before with done | first
      · exact .inl done
      · exact .inr ⟨first.1, rfl⟩
    · simpa only [Function.update_of_ne same] using before

theorem Mirrors.begin (mirrors : race.Mirrors start traced) {i : Nat} {task : Task} {key : Key}
    {h : HandlerId} (errand : task.errand w = .insert key h)
    (fresh : (race.parties i).stamp = none)
    (bound : start.toNat + race.stamps.length + 1 < 2 ^ 64) :
    Mirrors start (race.carryOut Registry.table w i task)
      (traced.carryOut Origins.table w i task) := by
  have stamped := mirrors.stamped.begin w errand fresh bound
  obtain ⟨-, distinct, entries, guards, made, parties⟩ := mirrors
  have fresh' : (traced.parties i).stamp = none := by
    have same := (parties i).stamp
    rw [fresh] at same
    exact eq_none_of_rel same
  have length : (traced.parties i).answers.length = (race.parties i).answers.length := by
    rw [(parties i).answers]
  simp only [carryOut, errand, fresh, fresh', Registry.table, Origins.table,
    Registry.stamp] at stamped ⊢
  refine ⟨stamped, distinct, ?entries, ?guards, made, ?parties⟩
  case entries =>
    intro key
    exact rel_imp (entries key) fun entry traced same => ⟨same.1, same.2.cons _⟩
  case guards =>
    intro name
    exact rel_imp (guards name) fun receipt traced same => ⟨same.1, same.2.cons _⟩
  case parties =>
    intro j
    by_cases same : j = i
    · subst same
      simp only [Function.update_self]
      refine ⟨(parties j).tasks, (parties j).answers, .some ⟨?_, ?_⟩⟩
      · rw [length]
      · exact List.mem_cons_self
    · simp only [Function.update_of_ne same]
      obtain ⟨same_tasks, same_answers, same_stamp⟩ := parties j
      exact ⟨same_tasks, same_answers,
        rel_imp same_stamp fun generation origin same => ⟨same.1, List.mem_cons_of_mem _ same.2⟩⟩

theorem Mirrors.write (mirrors : race.Mirrors start traced) {i : Nat} {task : Task} {key : Key}
    {h : HandlerId} (errand : task.errand w = .insert key h)
    (begun : (race.parties i).stamp.isSome = true) :
    Mirrors start (race.carryOut Registry.table w i task)
      (traced.carryOut Origins.table w i task) := by
  obtain ⟨tasks, answers, stamp⟩ := mirrors.parties i
  have length : (traced.parties i).answers.length = (race.parties i).answers.length := by
    rw [answers]
  simp only [carryOut, errand, length]
  revert stamp begun
  cases (race.parties i).stamp with
  | none => simp
  | some generation =>
    cases (traced.parties i).stamp with
    | none => rintro - ⟨⟩
    | some origin =>
      rintro - (⟨rfl, member⟩)
      have stands : Stands start race.stamps (.task ⟨i, (race.parties i).answers.length⟩)
        generation := .task _ _ member
      have entries : ∀ other, Option.Rel (SameEntry start race.stamps)
          ((race.table.write key ⟨h, generation⟩).find? other) (Function.update traced.table key
            (some (h, .task ⟨i, (race.parties i).answers.length⟩)) other) :=
        rel_update mirrors.entries (fun other => race.table.find?_write key other _)
          (.some ⟨rfl, stands⟩)
      have distinct := mirrors.distinct.put key ⟨h, generation⟩
      dsimp only
      split
      · have same : SameReceipt start race.stamps ⟨key, generation⟩
            ⟨key, .task ⟨i, (race.parties i).answers.length⟩⟩ := ⟨rfl, stands⟩
        refine mirrors.finish w rfl distinct entries ?_ ?_
        · exact rel_update mirrors.guards
            (fun name => by simp only [Function.update_apply, eq_comm]) (.some same)
        · intro id receipt there
          rw [Function.update_apply] at there
          split at there
          · rename_i own
            cases own
            cases there
            rfl
          · exact mirrors.made id receipt there
      · exact mirrors.finish w rfl distinct entries mirrors.guards mirrors.made

theorem Mirrors.remove (mirrors : race.Mirrors start traced) {i : Nat} {task : Task} {key : Key}
    (errand : task.errand w = .remove key) :
    Mirrors start (race.carryOut Registry.table w i task)
      (traced.carryOut Origins.table w i task) := by
  have removed : (race.table.remove key).1 = (traced.table key).isSome := by
    rw [← rel_isSome (mirrors.entries key)]
    unfold Registry.remove
    split <;> simp_all [Roster.has, Registry.find?]
  have left : (race.table.remove key).2.entries.Distinct := by
    unfold Registry.remove
    split
    · exact mirrors.distinct.erase key
    · exact mirrors.distinct
  have counter : (race.table.remove key).2.counter = race.table.counter := by
    unfold Registry.remove
    split <;> rfl
  simp only [carryOut, errand, Registry.table, Origins.table, removed]
  refine mirrors.finish w counter left ?_ mirrors.guards mirrors.made
  exact rel_update mirrors.entries (fun other => Registry.find?_remove race.table key other) .none

/-- The guard's own entry stands. -/
theorem Mirrors.holds_iff (mirrors : race.Mirrors start traced) {receipt : Receipt UInt64}
    {receipt' : Receipt Origin} (same : SameReceipt start race.stamps receipt receipt') :
    race.table.holds receipt.key receipt.stamp = true ↔
      (traced.table receipt'.key).map Prod.snd = some receipt'.stamp := by
  obtain ⟨same_key, stands⟩ := same
  have entry := mirrors.entries receipt.key
  rw [← same_key]
  unfold Registry.holds
  revert entry
  cases race.table.find? receipt.key with
  | none =>
    intro entry
    simp [eq_none_of_rel entry]
  | some entry =>
    cases traced.table receipt.key with
    | none => rintro ⟨⟩
    | some there =>
      rintro ⟨-, stands'⟩
      simp [mirrors.stamped.origin_iff stands' stands]

theorem Mirrors.letGo (mirrors : race.Mirrors start traced) {i : Nat} {task : Task}
    {name : GuardName} (errand : task.errand w = .release name) :
    Mirrors start (race.carryOut Registry.table w i task)
      (traced.carryOut Origins.table w i task) := by
  simp only [carryOut, errand]
  have guard := mirrors.guards name
  revert guard
  cases race.guards name with
  | none =>
    intro guard
    rw [eq_none_of_rel guard]
    exact mirrors.finish w rfl mirrors.distinct mirrors.entries mirrors.guards mirrors.made
  | some receipt =>
    cases traced.guards name with
    | none => rintro ⟨⟩
    | some receipt' =>
      rintro ⟨same⟩
      have guards : ∀ other, Option.Rel (SameReceipt start race.stamps)
          (Function.update race.guards name none other)
          (Function.update traced.guards name none other) :=
        rel_update mirrors.guards (fun other => by simp only [Function.update_apply, eq_comm]) .none
      have made : ∀ id receipt, Function.update traced.guards name none (.made id) = some receipt →
          receipt.stamp = .task id := by
        intro id receipt there
        rw [Function.update_apply] at there
        split at there
        · cases there
        · exact mirrors.made id receipt there
      by_cases holds : race.table.holds receipt.key receipt.stamp = true
      · have own := (mirrors.holds_iff same).mp holds
        simp only [Registry.table, Origins.table, Registry.removeGeneration, holds, own, if_true]
        refine mirrors.finish w rfl (mirrors.distinct.erase receipt.key) ?_ guards made
        rw [← same.1]
        exact rel_update mirrors.entries (fun other => race.table.entries.find?_erase _ other) .none
      · have foreign := mt (mirrors.holds_iff same).mpr holds
        simp only [Registry.table, Origins.table, Registry.removeGeneration, holds, foreign,
          if_false]
        exact mirrors.finish w rfl mirrors.distinct mirrors.entries guards made

/-- As long as no generation comes up again, a step takes a race and the same race for a table of
origins to where they are the same. -/
theorem Mirrors.step (mirrors : race.Mirrors start traced) (i : Nat)
    (bound : start.toNat + (race.step Registry.table w i).stamps.length < 2 ^ 64) :
    Mirrors start (race.step Registry.table w i) (traced.step Origins.table w i) := by
  have tasks := (mirrors.parties i).tasks
  unfold Race.step at bound ⊢
  rw [← tasks]
  cases first : (race.parties i).tasks with
  | nil => exact mirrors
  | cons task others =>
    rw [first] at bound
    dsimp only at bound ⊢
    cases errand : task.errand w with
    | insert key h =>
      cases begun : (race.parties i).stamp with
      | none =>
        rw [stamps_carryOut, errand, begun] at bound
        exact mirrors.begin w errand begun bound
      | some generation => exact mirrors.write w errand (by rw [begun]; rfl)
    | remove key => exact mirrors.remove w errand
    | release name => exact mirrors.letGo w errand
    | nothing =>
      simp only [carryOut, errand]
      exact mirrors.finish w rfl mirrors.distinct mirrors.entries mirrors.guards mirrors.made

/-- Up to the end of a race, the same race for a table of origins is where it is. -/
theorem Mirrors.run (mirrors : race.Mirrors start traced) (schedule : List Nat)
    (bound : start.toNat + (race.run Registry.table w schedule).stamps.length < 2 ^ 64) :
    Mirrors start (race.run Registry.table w schedule) (traced.run Origins.table w schedule) := by
  induction schedule generalizing race traced with
  | nil => exact mirrors
  | cons i schedule ih =>
    have later := stamps_run w Registry.table (race.step Registry.table w i) schedule
    have now : start.toNat + (race.step Registry.table w i).stamps.length < 2 ^ 64 :=
      lt_of_le_of_lt (Nat.add_le_add_left later _) bound
    exact ih (mirrors.step w i now) bound

end Race

namespace World
variable {w : World} {d : DispatcherId}

theorem guard?_eq_some {name : String} {guard : Guard}
    (held : w.guard? d (.given name) = some guard) :
    w.guards.find? name = some guard ∧ guard.dispatcher = some d := by
  simpa [guard?, Option.filter_eq_some_iff] using held

/-- A guard from before the race carries a generation from before the race. -/
theorem Reached.early (reached : w.Reached) (bound : inserts d w.history < 2 ^ 64) {name : String}
    {guard : Guard} (held : w.guard? d (.given name) = some guard) :
    guard.generation.toNat ≤ (w.registry d).counter.toNat := by
  obtain ⟨found, belongs⟩ := guard?_eq_some held
  obtain ⟨h, at_generation, -⟩ := reached.guarded bound name guard found belongs
  rw [reached.counter, Nat.mod_eq_of_lt bound]
  exact registrantAt_le at_generation

/-- A race and the same race for a table of origins start in the same place. -/
theorem Reached.mirrors (reached : w.Reached) (kept : w.keeps d = true)
    (bound : inserts d w.history < 2 ^ 64) (lists : List (List Task)) :
    (w.race d lists).Mirrors (w.registry d).counter (w.tracedRace d lists) := by
  have refines := reached.refines kept bound
  refine ⟨⟨rfl, by simp [race], List.nodup_nil, List.nodup_nil, by simp [race]⟩,
    reached.placed.distinct d, ?_, ?_, ?_, fun i => ⟨rfl, rfl, .none⟩⟩
  · intro key
    simp only [race, tracedRace]
    cases found : (w.registry d).find? key with
    | none => exact .none
    | some entry => exact .some ⟨rfl, .before _ (refines.at_most_counter key entry found)⟩
  · intro name
    simp only [race, tracedRace]
    cases held : w.guard? d name with
    | none => exact .none
    | some guard =>
      cases name with
      | made id => cases held
      | given name => exact .some ⟨rfl, .before _ (reached.early bound held)⟩
  · intro id receipt held
    cases held

end World

/-- The entry under the key of the guard is the one that was written when the guard was made. -/
def Race.Owns (traced : Race Origins Origin) (name : GuardName) : Prop :=
  ∃ receipt h, traced.guards name = some receipt ∧
    traced.table receipt.key = some (h, receipt.stamp)

/-- What is true of a race for a registry; the same race for a table of origins tells who wrote
which entry, and to whose entry a guard belongs. -/
structure Race.Exact (w : World) (start : UInt64) (race : Race Registry UInt64)
    (traced : Race Origins Origin) : Prop where
  generations : (race.stamps.map Prod.snd).Nodup
  new : ∀ e ∈ race.stamps, start < e.2
  one_entry : race.table.entries.Distinct
  handlers : ∀ key,
    (race.table.find? key).map Registration.handler = (traced.table key).map Prod.fst
  /-- An entry carries the generation that the task got that wrote it. -/
  written : ∀ key entry id, race.table.find? key = some entry →
    (traced.table key).map Prod.snd = some (.task id) → (id, entry.generation) ∈ race.stamps
  /-- The guard that a task made belongs to the entry that this task wrote. -/
  made : ∀ id receipt, traced.guards (.made id) = some receipt → receipt.stamp = .task id
  active_iff : ∀ name receipt, race.guards name = some receipt →
    (race.table.holds receipt.key receipt.stamp = true ↔ traced.Owns name)
  one_guard : ∀ name name' receipt receipt', race.guards name = some receipt →
    race.guards name' = some receipt' → receipt.key = receipt'.key →
    race.table.holds receipt.key receipt.stamp = true →
    race.table.holds receipt'.key receipt'.stamp = true → name = name'
  /-- To let a guard go removes the guard's own entry, if it still stands, and nothing else. -/
  release : ∀ i task tasks name receipt, (race.parties i).tasks = task :: tasks →
    task.errand w = .release name → race.guards name = some receipt →
    let after := race.step Registry.table w i
    ∃ removed, (removed = true ↔ traced.Owns name) ∧
      (after.parties i).answers = (race.parties i).answers ++ [task.answer w removed] ∧
      ∀ key, after.table.find? key =
        if removed = true ∧ receipt.key = key then none else race.table.find? key

namespace Race.Mirrors
variable {start : UInt64} {race : Race Registry UInt64} {traced : Race Origins Origin}

theorem receipt (mirrors : race.Mirrors start traced) {name : GuardName}
    {receipt : Receipt UInt64} (held : race.guards name = some receipt) :
    ∃ traced_receipt, traced.guards name = some traced_receipt ∧
      SameReceipt start race.stamps receipt traced_receipt := by
  have guard := mirrors.guards name
  rw [held] at guard
  revert guard
  cases traced.guards name with
  | none => rintro ⟨⟩
  | some traced_receipt =>
    rintro ⟨same⟩
    exact ⟨traced_receipt, rfl, same⟩

theorem handlers (mirrors : race.Mirrors start traced) (key : Key) :
    (race.table.find? key).map Registration.handler = (traced.table key).map Prod.fst := by
  have entry := mirrors.entries key
  revert entry
  cases race.table.find? key with
  | none =>
    intro entry
    rw [eq_none_of_rel entry]
    rfl
  | some entry =>
    cases traced.table key with
    | none => rintro ⟨⟩
    | some there =>
      rintro ⟨same, -⟩
      exact congrArg some same

theorem active_iff (mirrors : race.Mirrors start traced) {name : GuardName}
    {receipt : Receipt UInt64} (held : race.guards name = some receipt) :
    race.table.holds receipt.key receipt.stamp = true ↔ traced.Owns name := by
  obtain ⟨receipt', held', same⟩ := mirrors.receipt held
  rw [mirrors.holds_iff same]
  constructor
  · intro own
    obtain ⟨⟨h, origin⟩, there, rfl⟩ := Option.map_eq_some_iff.mp own
    exact ⟨receipt', h, held', there⟩
  · rintro ⟨other, h, held_other, there⟩
    rw [held', Option.some.injEq] at held_other
    rw [held_other, there]
    rfl

theorem release (mirrors : race.Mirrors start traced) {w : World} {i : Nat} {task : Task}
    {tasks : List Task} {name : GuardName} {receipt : Receipt UInt64}
    (first : (race.parties i).tasks = task :: tasks) (errand : task.errand w = .release name)
    (held : race.guards name = some receipt) :
    let after := race.step Registry.table w i
    ∃ removed, (removed = true ↔ traced.Owns name) ∧
      (after.parties i).answers = (race.parties i).answers ++ [task.answer w removed] ∧
      ∀ key, after.table.find? key =
        if removed = true ∧ receipt.key = key then none else race.table.find? key := by
  intro after
  refine ⟨race.table.holds receipt.key receipt.stamp, mirrors.active_iff held, ?_, fun key => ?_⟩
  · simp only [after, Race.step, first, carryOut, errand, held, Race.finish, Registry.table,
      World.removed_removeGeneration, Function.update_self]
  · simp only [after, Race.step, first, carryOut, errand, held, Registry.table]
    rw [Registry.find?_removeGeneration]
    simp only [and_comm]

/-- Two active guards of one key would both carry the generation of its entry. -/
theorem one_guard (mirrors : race.Mirrors start traced)
    (given : ∀ name name' receipt receipt', race.guards (.given name) = some receipt →
      race.guards (.given name') = some receipt' → receipt.stamp = receipt'.stamp → name = name')
    (early : ∀ name receipt, race.guards (.given name) = some receipt →
      receipt.stamp.toNat ≤ start.toNat)
    {name name' : GuardName} {receipt receipt' : Receipt UInt64}
    (held : race.guards name = some receipt) (held' : race.guards name' = some receipt')
    (same : receipt.stamp = receipt'.stamp) : name = name' := by
  have stamped : ∀ {id} {receipt : Receipt UInt64}, race.guards (.made id) = some receipt →
      (id, receipt.stamp) ∈ race.stamps := by
    intro id receipt held
    obtain ⟨traced_receipt, traced_held, -, stands⟩ := mirrors.receipt held
    rw [mirrors.made id traced_receipt traced_held] at stands
    cases stands with
    | task id generation member => exact member
  have late : ∀ {id n} {made given : Receipt UInt64}, race.guards (.made id) = some made →
      race.guards (.given n) = some given → made.stamp ≠ given.stamp := by
    intro id n made given held held' same
    have new := (mirrors.stamped.new _ (stamped held)).1
    have old := early n given held'
    rw [← same] at old
    exact absurd new (not_lt.mpr old)
  cases name with
  | made id =>
    cases name' with
    | made id' =>
      have member' := stamped held'
      rw [← same] at member'
      have one := List.inj_on_of_nodup_map mirrors.stamped.generations (stamped held) member' rfl
      rw [(Prod.mk.inj one).1]
    | given n' => exact absurd same (late held held')
  | given n =>
    cases name' with
    | made id' => exact absurd same.symm (late held' held)
    | given n' => exact congrArg _ (given n n' receipt receipt' held held' same)

theorem exact (mirrors : race.Mirrors start traced) (w : World)
    (given : ∀ name name' receipt receipt', race.guards (.given name) = some receipt →
      race.guards (.given name') = some receipt' → receipt.stamp = receipt'.stamp → name = name')
    (early : ∀ name receipt, race.guards (.given name) = some receipt →
      receipt.stamp.toNat ≤ start.toNat) :
    race.Exact w start traced where
  generations := mirrors.stamped.generations
  new e member := UInt64.lt_iff_toNat_lt.mpr (mirrors.stamped.new e member).1
  one_entry := mirrors.distinct
  handlers := mirrors.handlers
  written key entry id found origin := by
    have same := mirrors.entries key
    obtain ⟨there, traced_found, from_task⟩ := Option.map_eq_some_iff.mp origin
    rw [found, traced_found] at same
    obtain ⟨-, stands⟩ := same
    rw [from_task] at stands
    cases stands with
    | task id generation member => exact member
  made := mirrors.made
  active_iff name receipt := mirrors.active_iff
  one_guard name name' receipt receipt' held held' same_key active active' := by
    refine mirrors.one_guard given early held held' ?_
    rw [same_key] at active
    unfold Registry.holds at active active'
    cases found : race.table.find? receipt'.key with
    | none => simp [found] at active
    | some entry =>
      simp only [found, decide_eq_true_eq] at active active'
      exact active.symm.trans active'
  release i task tasks name receipt := mirrors.release

end Race.Mirrors

theorem race_guards_exact (arity : Arity) (blueprints : List Blueprint) (moves : List Move)
    (d : DispatcherId) (lists : List (List Task)) (schedule : List Nat) :
    let w := ((Machine.idle arity blueprints).run moves).world
    let race := (w.race d lists).run Registry.table w schedule
    w.keeps d = true → inserts d w.history + race.stamps.length < 2 ^ 64 →
    race.Exact w (w.registry d).counter ((w.tracedRace d lists).run Origins.table w schedule) := by
  intro w race kept bound
  have reached : w.Reached := Machine.run_reached arity blueprints moves
  have early : inserts d w.history < 2 ^ 64 := by omega
  have counter := (reached.refines kept early).counter
  have mirrors := (reached.mirrors kept early lists).run w schedule (by rw [counter]; exact bound)
  have given : ∀ {name receipt}, race.guards (.given name) = some receipt →
      ∃ guard, w.guard? d (.given name) = some guard ∧ receipt.stamp = guard.generation := by
    intro name receipt held
    obtain ⟨guard, before, rfl⟩ := Option.map_eq_some_iff.mp (Race.guards_run w _ held)
    exact ⟨guard, before, rfl⟩
  refine mirrors.exact w ?_ ?_
  · intro name name' receipt receipt' held held' same
    obtain ⟨guard, before, stamp⟩ := given held
    obtain ⟨guard', before', stamp'⟩ := given held'
    obtain ⟨found, belongs⟩ := World.guard?_eq_some before
    obtain ⟨found', belongs'⟩ := World.guard?_eq_some before'
    exact reached.guards_apart early found found' belongs belongs' (stamp ▸ stamp' ▸ same)
  · intro name receipt held
    obtain ⟨guard, before, stamp⟩ := given held
    exact stamp ▸ reached.early early before

def racingMoves : List Move :=
  [.act (.createDispatcher (some "d") .usual), .act (.createHandler (some "a") 0 none)]

/-- Both parties subscribe the handler, and the second one lets its guard go. -/
def racingLists : List (List Task) :=
  [[.subscribe "a"], [.subscribe "a", .unsubscribe (.made ⟨1, 0⟩)]]

/-- The first generation reaches the registry after the second one, whose guard then removes nothing
any more. -/
theorem race_guards_exact_overtaken :
    let w := ((Machine.idle .simple [{}]).run racingMoves).world
    let race := (w.race 0 racingLists).run Registry.table w [0, 1, 1, 0]
    let after := race.step Registry.table w 1
    race.Exact w 0 ((w.tracedRace 0 racingLists).run Origins.table w [0, 1, 1, 0]) ∧
      race.stamps = [(⟨1, 0⟩, 2), (⟨0, 0⟩, 1)] ∧
      race.table.find? (w.keyOf "a") = some ⟨"a", 1⟩ ∧
      (after.parties 1).answers = [.nothing, .flag false] ∧
      after.table.find? (w.keyOf "a") = some ⟨"a", 1⟩ := by
  intro w race after
  have exact_race := race_guards_exact .simple [{}] racingMoves 0 racingLists [0, 1, 1, 0]
    (by decide +kernel) (by decide +kernel)
  exact ⟨exact_race, by decide +kernel, by decide +kernel, by decide +kernel, by decide +kernel⟩

end Fanout
