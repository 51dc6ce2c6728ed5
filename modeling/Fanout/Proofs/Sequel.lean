import Fanout.Proofs.Racing

/-! Parties that take turns. A task that is done at once comes to what it comes to in a race in
which nothing happens between its steps, so to take turns is one way to race. -/
namespace Fanout

namespace World

/-- Only the registry of one dispatcher was changed, and this is what it is now. -/
structure Sets (w : World) (d : DispatcherId) (registry : Registry) (after : World) : Prop where
  registry : after.registry d = registry
  handlers : after.handlers = w.handlers
  dispatchers : after.dispatchers.length = w.dispatchers.length
  kept : after.keeps d = w.keeps d

variable {w : World} {d : DispatcherId}

theorem sets_setRegistry (there : d < w.dispatchers.length) (registry : Registry) :
    w.Sets d registry (w.setRegistry d registry) :=
  ⟨registry_setRegistry w there registry, rfl, List.length_modify .., rfl⟩

theorem Sets.record {registry : Registry} {after : World} (sets : w.Sets d registry after)
    (event : Event) : w.Sets d registry (after.record event) :=
  ⟨sets.registry, sets.handlers, sets.dispatchers, sets.kept⟩

theorem sets_self (w : World) (d : DispatcherId) : w.Sets d (w.registry d) w := ⟨rfl, rfl, rfl, rfl⟩

end World

def Guard.receipt (guard : Guard) : Receipt UInt64 := ⟨guard.key, guard.generation⟩

namespace Race
variable {w : World} {d : DispatcherId} {left : Nat → List Task} {race : Race Registry UInt64}
  {s : Sequel}

/-- Nobody is in the middle of a task, what was done comes to the same, and this is what is left. -/
structure Plays (w : World) (d : DispatcherId) (left : Nat → List Task)
    (race : Race Registry UInt64) (s : Sequel) : Prop where
  table : s.world.registry d = race.table
  memory : s.world.handlers = w.handlers
  there : d < s.world.dispatchers.length
  kept : s.world.keeps d = true
  guards : ∀ name, race.guards name = (s.guards name).map Guard.receipt
  belongs : ∀ name guard, s.guards name = some guard → guard.dispatcher = some d
  answers : ∀ i, (race.parties i).answers = s.answers i
  idle : ∀ i, (race.parties i).stamp = none
  tasks : ∀ i, (race.parties i).tasks = left i

/-- Some steps bring the race there. -/
def Reaches (w : World) (d : DispatcherId) (left : Nat → List Task) (race : Race Registry UInt64)
    (s : Sequel) : Prop :=
  ∃ schedule, (race.run Registry.table w schedule).Plays w d left s

theorem Reaches.trans {left' : Nat → List Task} {s' : Sequel} (reaches : race.Reaches w d left s)
    (further : ∀ {race : Race Registry UInt64}, race.Plays w d left s → race.Reaches w d left' s') :
    race.Reaches w d left' s' := by
  obtain ⟨schedule, plays⟩ := reaches
  obtain ⟨schedule', plays'⟩ := further plays
  refine ⟨schedule ++ schedule', ?_⟩
  rwa [Race.run, List.foldl_append]

theorem Reaches.of_carryOut {i : Nat} {task : Task} {tasks : List Task}
    (first : (race.parties i).tasks = task :: tasks)
    (plays : (race.carryOut Registry.table w i task).Plays w d left s) :
    race.Reaches w d left s := by
  refine ⟨[i], ?_⟩
  show (race.step Registry.table w i).Plays w d left s
  rwa [step_of_first w _ first]

/-- A registration whose two steps are taken one after the other. -/
theorem run_insert {i : Nat} {task : Task} {tasks : List Task} {key : Key} {h : HandlerId}
    (first : (race.parties i).tasks = task :: tasks) (idle : (race.parties i).stamp = none)
    (errand : task.errand w = .insert key h) :
    let id : TaskId := ⟨i, (race.parties i).answers.length⟩
    let (generation, registry) := race.table.insert key h
    race.run Registry.table w [i, i] =
      { race.finish w i task false with
        table := registry
        guards :=
          if task.subscribes then
            Function.update race.guards (.made id) (some ⟨key, generation⟩)
          else race.guards
        stamps := (id, generation) :: race.stamps } := by
  simp only [Race.run, List.foldl_cons, List.foldl_nil, Race.step, first, carryOut, errand, idle,
    Function.update_self, Race.finish, Function.update_idem]
  rfl

section
variable {i : Nat} {task : Task} {tasks : List Task}

theorem Plays.alive (plays : race.Plays w d left s) (h : HandlerId) :
    s.world.alive h = w.alive h := by
  simp only [World.alive, plays.memory]

theorem Plays.handleAlive (plays : race.Plays w d left s) (handle : Option HandlerId) :
    s.world.handleAlive handle = w.handleAlive handle := by
  cases handle with
  | none => rfl
  | some h => exact plays.alive h

theorem Plays.keyOf (plays : race.Plays w d left s) (h : HandlerId) :
    s.world.keyOf h = w.keyOf h := by
  simp only [World.keyOf, plays.memory]

theorem Plays.handleKey (plays : race.Plays w d left s) (handle : Option HandlerId) :
    s.world.handleKey handle = w.handleKey handle := by
  cases handle with
  | none => rfl
  | some h => exact plays.keyOf h

theorem Plays.finish (plays : race.Plays w d left s) (first : left i = task :: tasks)
    (removed : Bool) {registry : Registry} {after : World}
    {guards : GuardName → Option (Receipt UInt64)} {guards' : GuardName → Option Guard}
    (stamps : List (TaskId × UInt64)) (sets : s.world.Sets d registry after)
    (receipts : ∀ name, guards name = (guards' name).map Guard.receipt)
    (belongs : ∀ name guard, guards' name = some guard → guard.dispatcher = some d) :
    Plays w d (Function.update left i tasks)
      { race.finish w i task removed with table := registry, guards, stamps }
      { s.reply i after (task.answer w removed) with guards := guards' } := by
  refine ⟨sets.registry, sets.handlers.trans plays.memory, sets.dispatchers ▸ plays.there,
    sets.kept.trans plays.kept, receipts, belongs, fun j => ?_, fun j => ?_, fun j => ?_⟩
  · simp only [Race.finish, Sequel.reply, Function.update_apply]
    split
    · rw [plays.answers]
    · exact plays.answers j
  · simp only [Race.finish, Function.update_apply]
    split
    · rfl
    · exact plays.idle j
  · simp only [Race.finish, Function.update_apply]
    split
    · rw [plays.tasks, first, List.tail_cons]
    · exact plays.tasks j

/-- The names of guards stand for the same after one of them was given away, or let go. -/
theorem Plays.update_guards (plays : race.Plays w d left s) (name : GuardName)
    (guard : Option Guard) (belongs : ∀ g, guard = some g → g.dispatcher = some d) :
    (∀ other, Function.update race.guards name (guard.map Guard.receipt) other =
      (Function.update s.guards name guard other).map Guard.receipt) ∧
    ∀ other g, Function.update s.guards name guard other = some g → g.dispatcher = some d := by
  constructor
  · intro other
    simp only [Function.update_apply]
    split
    · rfl
    · exact plays.guards other
  · intro other g held
    rw [Function.update_apply] at held
    split at held
    · exact belongs g held
    · exact plays.belongs other g held

theorem Plays.insert (plays : race.Plays w d left s) (first : left i = task :: tasks)
    {h : HandlerId} (errand : task.errand w = .insert (w.keyOf h) h) (event : Event) :
    race.Reaches w d (Function.update left i tasks)
      { s.reply i ((s.world.insert d h).2.record event) (task.answer w false) with
        guards :=
          if task.subscribes then
            Function.update s.guards (.made ⟨i, (s.answers i).length⟩)
              (some ⟨some d, s.world.keyOf h, (s.world.insert d h).1⟩)
          else s.guards } := by
  have inserted := (World.sets_setRegistry plays.there
    ((s.world.registry d).insert (w.keyOf h) h).2).record event
  refine ⟨[i, i], ?_⟩
  have done := run_insert (w := w) ((plays.tasks i).trans first) (plays.idle i) errand
  dsimp only at done
  rw [done]
  simp only [World.insert, plays.keyOf]
  rw [plays.table] at inserted ⊢
  split
  · obtain ⟨receipts, belongs⟩ := plays.update_guards (.made ⟨i, (race.parties i).answers.length⟩)
      (some ⟨some d, w.keyOf h, (race.table.insert (w.keyOf h) h).1⟩) (by simp)
    rw [← plays.answers]
    exact plays.finish first _ _ inserted receipts belongs
  · exact plays.finish first _ _ inserted plays.guards plays.belongs

theorem Plays.remove (plays : race.Plays w d left s) (first : left i = task :: tasks) {key : Key}
    (errand : task.errand w = .remove key) {after : World}
    (sets : s.world.Sets d ((s.world.registry d).remove key).2 after) :
    race.Reaches w d (Function.update left i tasks)
      (s.reply i after (task.answer w ((s.world.registry d).remove key).1)) := by
  refine .of_carryOut ((plays.tasks i).trans first) ?_
  simp only [carryOut, errand]
  rw [plays.table] at sets ⊢
  exact plays.finish first _ race.stamps sets plays.guards plays.belongs

theorem Plays.letGo (plays : race.Plays w d left s) (first : left i = task :: tasks)
    {name : GuardName} (errand : task.errand w = .release name) {guard : Guard}
    (held : s.guards name = some guard) :
    race.Reaches w d (Function.update left i tasks)
      { s.reply i (s.world.dropGuard guard) (task.answer w (s.world.isActive guard)) with
        guards := Function.update s.guards name none } := by
  obtain ⟨dispatcher, key, generation⟩ := guard
  obtain rfl : dispatcher = some d := plays.belongs name _ held
  have held' : race.guards name = some ⟨key, generation⟩ := by
    rw [plays.guards, held]
    rfl
  have sets := (World.sets_setRegistry plays.there
    ((s.world.registry d).removeGeneration key generation).2).record
      (.released d key generation ((s.world.registry d).removeGeneration key generation).1)
  rw [← World.dropGuard_kept plays.kept] at sets
  obtain ⟨receipts, belongs⟩ := plays.update_guards name none (by simp)
  refine .of_carryOut ((plays.tasks i).trans first) ?_
  simp only [carryOut, errand, held', World.isActive, plays.kept, Bool.true_and]
  rw [plays.table] at sets ⊢
  rw [← World.removed_removeGeneration]
  exact plays.finish first _ race.stamps sets receipts belongs

/-- A task that is out for nothing, or for a guard that was let go. -/
theorem Plays.nothing (plays : race.Plays w d left s) (first : left i = task :: tasks)
    (errand : task.errand w = .nothing ∨
      ∃ name, task.errand w = .release name ∧ s.guards name = none) :
    race.Reaches w d (Function.update left i tasks)
      (s.reply i s.world (task.answer w false)) := by
  have sets := World.sets_self s.world d
  rw [plays.table] at sets
  have done := plays.finish first false race.stamps sets plays.guards plays.belongs
  refine .of_carryOut ((plays.tasks i).trans first) ?_
  rcases errand with errand | ⟨name, errand, gone⟩
  · simp only [carryOut, errand]
    exact done
  · have gone' : race.guards name = none := by
      rw [plays.guards, gone]
      rfl
    simp only [carryOut, errand, gone']
    exact done

/-- A dead or empty handle is out for nothing. -/
theorem Plays.registerWeak {handle : Option HandlerId} (plays : race.Plays w d left s)
    (first : left i = .registerWeak handle :: tasks) :
    race.Reaches w d (Function.update left i tasks) (s.doTask d i (.registerWeak handle)) := by
  cases handle with
  | none => exact plays.nothing first (.inl rfl)
  | some h =>
    cases living : w.alive h with
    | true =>
      have inserted := plays.insert first (h := h) (by simp only [Task.errand, living, if_true])
        (.registered d h (s.world.insert d h).1)
      simp only [Task.answer, World.handleAlive, living, if_true] at inserted
      simp only [Sequel.doTask, World.registerWeak, plays.alive, living, if_true]
      exact inserted
    | false =>
      have refused := plays.nothing first (.inl (by simp [Task.errand, living]))
      simpa [Sequel.doTask, World.registerWeak, plays.alive, living, Task.answer,
        World.handleAlive, Answer.ofExcept] using refused

/-- Whether or not the handle is good, what stands under its key is removed. -/
theorem Plays.unregisterWeak {handle : Option HandlerId} (plays : race.Plays w d left s)
    (first : left i = .unregisterWeak handle :: tasks) :
    race.Reaches w d (Function.update left i tasks) (s.doTask d i (.unregisterWeak handle)) := by
  have errand : (Task.unregisterWeak handle).errand w = .remove (s.world.handleKey handle) := by
    rw [plays.handleKey]
    rfl
  have removed := World.sets_setRegistry plays.there
    ((s.world.registry d).remove (s.world.handleKey handle)).2
  simp only [Sequel.doTask, World.unregisterWeak, plays.handleAlive]
  split
  · rename_i refused
    have done := plays.remove first errand removed
    simpa only [Task.answer, refused, if_true, Answer.ofExcept] using done
  · rename_i granted
    cases handle with
    | none =>
      have done := plays.remove first errand removed
      simpa only [Task.answer, granted, Bool.false_eq_true, if_false, Answer.ofExcept] using done
    | some h =>
      have done := fun event => plays.remove first errand (removed.record event)
      simp only [Task.answer, granted, Bool.false_eq_true, if_false] at done
      exact done _

/-- The whole of the task is done at once in the sequel, and in one step or two in the race. -/
theorem Plays.doTask (plays : race.Plays w d left s) (first : left i = task :: tasks) :
    race.Reaches w d (Function.update left i tasks) (s.doTask d i task) := by
  cases task with
  | register h => exact plays.insert first rfl _
  | registerWeak handle => exact plays.registerWeak first
  | unregister h =>
    have removed := World.sets_setRegistry plays.there
      ((s.world.registry d).remove (s.world.keyOf h)).2
    exact plays.remove first (by rw [plays.keyOf]; rfl) (removed.record _)
  | unregisterWeak handle => exact plays.unregisterWeak first
  | subscribe h => exact plays.insert first rfl _
  | unsubscribe name =>
    simp only [Sequel.doTask]
    cases held : s.guards name with
    | none => exact plays.nothing first (.inr ⟨name, rfl, held⟩)
    | some guard =>
      have done := plays.letGo first rfl held
      rw [← World.unsubscribe_answer] at done
      simpa only [Task.answer, World.unsubscribe_eq] using done
  | dropGuard name =>
    simp only [Sequel.doTask]
    cases held : s.guards name with
    | none => exact plays.nothing first (.inr ⟨name, rfl, held⟩)
    | some guard => exact plays.letGo first rfl held

end

theorem Plays.doTasks (plays : race.Plays w d left s) {i : Nat} {tasks : List Task}
    (all : left i = tasks) :
    race.Reaches w d (Function.update left i []) (tasks.foldl (Sequel.doTask d i) s) := by
  induction tasks generalizing race left s with
  | nil =>
    refine ⟨[], ?_⟩
    rw [show Function.update left i [] = left from all ▸ Function.update_eq_self i left]
    exact plays
  | cons task tasks ih =>
    refine (plays.doTask all).trans fun plays => ?_
    have rest := ih plays (Function.update_self ..)
    rwa [Function.update_idem] at rest

theorem Plays.takeTurns (plays : race.Plays w d left s) (lists : List (List Task))
    {order : List Nat} (all : ∀ i ∈ order, left i = lists.getD i []) (once : order.Nodup) :
    race.Reaches w d (fun i => if i ∈ order then [] else left i)
      (order.foldl (fun s i => (lists.getD i []).foldl (Sequel.doTask d i) s) s) := by
  induction order generalizing race left s with
  | nil =>
    refine ⟨[], ?_⟩
    simp only [List.not_mem_nil, if_false]
    exact plays
  | cons i order ih =>
    obtain ⟨new, once⟩ := List.nodup_cons.mp once
    rw [List.forall_mem_cons] at all
    refine (plays.doTasks all.1).trans fun plays => ?_
    have rest : ∀ j ∈ order, Function.update left i [] j = lists.getD j [] := by
      intro j member
      rw [Function.update_of_ne (ne_of_mem_of_not_mem member new)]
      exact all.2 j member
    have done := ih plays rest once
    have same : (fun j => if j ∈ order then [] else Function.update left i [] j) =
        fun j => if j ∈ i :: order then [] else left j := by
      funext j
      by_cases own : j = i
      · simp [own]
      · simp [own]
    rwa [same] at done

end Race

/-- To take turns is one way to race. -/
theorem World.race_inTurn (w : World) (d : DispatcherId) (lists : List (List Task))
    (there : d < w.dispatchers.length) (kept : w.keeps d = true) {order : List Nat}
    (turns : order.Perm (List.range lists.length)) :
    (w.race d lists).Reaches w d (fun _ => []) (w.inTurn d lists order) := by
  have belongs : ∀ name guard, w.guard? d name = some guard → guard.dispatcher = some d := by
    rintro (name | id) guard held
    · exact (guard?_eq_some held).2
    · cases held
  have starts : (w.race d lists).Plays w d (fun i => lists.getD i [])
      { world := w, guards := w.guard? d } :=
    ⟨rfl, rfl, there, kept, fun _ => rfl, belongs, fun _ => rfl, fun _ => rfl, fun _ => rfl⟩
  have done := starts.takeTurns lists (fun _ _ => rfl) (turns.nodup_iff.mpr List.nodup_range)
  have nothing : (fun i => if i ∈ order then [] else lists.getD i []) = fun _ => [] := by
    funext i
    simp only [turns.mem_iff, List.mem_range]
    split
    · rfl
    · rename_i beyond
      exact List.getD_eq_default _ _ (Nat.le_of_not_lt beyond)
  rwa [nothing] at done

end Fanout
