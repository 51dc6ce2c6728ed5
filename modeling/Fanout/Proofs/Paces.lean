import Fanout.Race

/-! What a step of a race does, whatever the race is for: how far it brings the parties, which
guards there are after it, and how many stamps. -/
namespace Fanout.Race
variable (w : World) {τ γ : Type} (table : Table τ γ) {race : Race τ γ}

theorem step_of_first {i : Nat} {task : Task} {tasks : List Task}
    (first : (race.parties i).tasks = task :: tasks) :
    race.step table w i = race.carryOut table w i task := by
  simp only [Race.step, first]

theorem step_of_done {i : Nat} (done : (race.parties i).tasks = []) :
    race.step table w i = race := by
  simp only [Race.step, done]

theorem run_of_done {i : Nat} (done : (race.parties i).tasks = []) (n : Nat) :
    race.run table w (List.replicate n i) = race := by
  induction n with
  | zero => rfl
  | succ n ih =>
    rw [List.replicate_succ, Race.run, List.foldl_cons, step_of_done w table done]
    exact ih

variable (race)

theorem parties_carryOut {i j : Nat} (other : i ≠ j) (task : Task) :
    (race.carryOut table w j task).parties i = race.parties i := by
  have others : ∀ {party : Party γ}, Function.update race.parties j party i = race.parties i :=
    Function.update_of_ne other _ _
  unfold carryOut
  dsimp only [Race.finish]
  split
  · exact others
  · exact others
  · exact others
  · split <;> exact others
  · exact others

/-- What a party has still to do after one of its steps is among what it had to do. -/
theorem tasks_carryOut (i j : Nat) (task : Task) :
    ∀ t ∈ ((race.carryOut table w j task).parties i).tasks, t ∈ (race.parties i).tasks := by
  have finished : ∀ removed, ∀ t ∈ ((race.finish w j task removed).parties i).tasks,
      t ∈ (race.parties i).tasks := by
    intro removed t member
    simp only [Race.finish, Function.update_apply] at member
    split at member
    · rename_i same
      exact same ▸ List.mem_of_mem_tail member
    · exact member
  intro t member
  unfold carryOut at member
  dsimp only at member
  split at member
  · simp only [Function.update_apply] at member
    split at member
    · rename_i same
      exact same ▸ member
    · exact member
  · exact finished _ t member
  · exact finished _ t member
  · split at member
    · exact finished _ t member
    · exact finished _ t member
  · exact finished _ t member

theorem tasks_run (i : Nat) (schedule : List Nat) :
    ∀ t ∈ ((race.run table w schedule).parties i).tasks, t ∈ (race.parties i).tasks := by
  induction schedule generalizing race with
  | nil => exact fun _ => id
  | cons j schedule ih =>
    intro t member
    have later := ih (race.step table w j) t member
    cases first : (race.parties j).tasks with
    | nil => rwa [step_of_done w table first] at later
    | cons task tasks =>
      rw [step_of_first w table first] at later
      exact tasks_carryOut w table race i j task t later

variable {race}

/-- A guard was there before, or is the one that the task gives out. -/
theorem guards_of_carryOut {i : Nat} {task : Task} {name : GuardName} {receipt : Receipt γ}
    (held : (race.carryOut table w i task).guards name = some receipt) :
    race.guards name = some receipt ∨
      ∃ key h stamp, task.errand w = .insert key h ∧
        name = .made ⟨i, (race.parties i).answers.length⟩ ∧ receipt = ⟨key, stamp⟩ := by
  unfold carryOut at held
  dsimp only at held
  split at held
  · exact .inl held
  · rename_i key h stamp errand _
    dsimp only at held
    split at held
    · rw [Function.update_apply] at held
      split at held
      · rename_i new
        exact .inr ⟨key, h, stamp, errand, new, (Option.some.inj held).symm⟩
      · exact .inl held
    · exact .inl held
  · exact .inl held
  · split at held
    · dsimp only at held
      rw [Function.update_apply] at held
      split at held
      · cases held
      · exact .inl held
    · exact .inl held
  · exact .inl held

/-- No guard from before the race comes back, and none comes up. -/
theorem guards_run {schedule : List Nat} {name : String} {receipt : Receipt γ}
    (held : (race.run table w schedule).guards (.given name) = some receipt) :
    race.guards (.given name) = some receipt := by
  induction schedule generalizing race with
  | nil => exact held
  | cons i schedule ih =>
    have later := ih held
    cases first : (race.parties i).tasks with
    | nil => rwa [step_of_done w table first] at later
    | cons task tasks =>
      rw [step_of_first w table first] at later
      rcases guards_of_carryOut w table later with old | ⟨key, h, stamp, errand, new, same⟩
      · exact old
      · cases new

variable (race)

/-- What begins a task hands out one more stamp, and no other step hands out any. -/
theorem stamps_carryOut (i : Nat) (task : Task) :
    (race.carryOut table w i task).stamps.length =
      match task.errand w, (race.parties i).stamp with
      | .insert _ _, none => race.stamps.length + 1
      | _, _ => race.stamps.length := by
  unfold carryOut
  dsimp only
  split
  · rename_i errand fresh
    simp [errand, fresh]
  · rename_i errand begun
    simp [errand, begun, Race.finish]
  · rename_i errand
    simp [errand, Race.finish]
  · rename_i errand
    split <;> simp [errand, Race.finish]
  · rename_i errand
    simp [errand, Race.finish]

theorem stamps_step (i : Nat) : race.stamps.length ≤ (race.step table w i).stamps.length := by
  unfold Race.step
  split
  · rw [stamps_carryOut]
    split
    · exact Nat.le_succ _
    · exact Nat.le_refl _
  · exact Nat.le_refl _

theorem stamps_run (schedule : List Nat) :
    race.stamps.length ≤ (race.run table w schedule).stamps.length := by
  induction schedule generalizing race with
  | nil => exact Nat.le_refl _
  | cons i schedule ih => exact Nat.le_trans (stamps_step w table race i) (ih _)

/-- A party hands out no stamps for the tasks of another one. -/
theorem filter_stamps_carryOut {i j : Nat} (other : i ≠ j) (task : Task) :
    (race.carryOut table w j task).stamps.filter (·.1.party = i) =
      race.stamps.filter (·.1.party = i) := by
  unfold Race.carryOut
  dsimp only
  split
  · simp [Ne.symm other]
  · rfl
  · rfl
  · split <;> rfl
  · rfl

variable {race} {τ' γ' : Type} (table' : Table τ' γ') {race' : Race τ' γ'}

structure Paced (race : Race τ γ) (race' : Race τ' γ') : Prop where
  tasks : ∀ i, (race.parties i).tasks = (race'.parties i).tasks
  begun : ∀ i, (race.parties i).stamp.isSome = (race'.parties i).stamp.isSome
  stamps : race.stamps.length = race'.stamps.length

theorem Paced.finish (paced : race.Paced race') (j : Nat) (task : Task) (removed removed' : Bool)
    {left : τ} {left' : τ'} {guards : GuardName → Option (Receipt γ)}
    {guards' : GuardName → Option (Receipt γ')} :
    Paced { race.finish w j task removed with table := left, guards }
      { race'.finish w j task removed' with table := left', guards := guards' } := by
  refine ⟨fun i => ?_, fun i => ?_, paced.stamps⟩ <;>
    simp only [Race.finish, Function.update_apply] <;> split
  · rw [paced.tasks]
  · exact paced.tasks i
  · rfl
  · exact paced.begun i

theorem Paced.step (paced : race.Paced race') (j : Nat) :
    (race.step table w j).Paced (race'.step table' w j) := by
  have same := paced.tasks j
  have begun := paced.begun j
  cases first : (race.parties j).tasks with
  | nil => rwa [step_of_done w table first, step_of_done w table' (same ▸ first)]
  | cons task rest =>
    rw [step_of_first w table first, step_of_first w table' (same ▸ first)]
    cases errand : task.errand w with
    | insert key h =>
      simp only [Race.carryOut, errand]
      revert begun
      cases (race.parties j).stamp <;> cases (race'.parties j).stamp
      · intro _
        refine ⟨fun i => ?_, fun i => ?_, congrArg (· + 1) paced.stamps⟩ <;>
          simp only [Function.update_apply] <;> split
        · exact same
        · exact paced.tasks i
        · rfl
        · exact paced.begun i
      · rintro ⟨⟩
      · rintro ⟨⟩
      · exact fun _ => paced.finish w j task false false
    | remove key =>
      simp only [Race.carryOut, errand]
      exact paced.finish w j task _ _
    | release name =>
      simp only [Race.carryOut, errand]
      cases race.guards name <;> cases race'.guards name <;> exact paced.finish w j task _ _
    | nothing =>
      simp only [Race.carryOut, errand]
      exact paced.finish w j task false false

/-- How far a schedule brings a race does not depend on what the race is for. -/
theorem Paced.run (paced : race.Paced race') (schedule : List Nat) :
    (race.run table w schedule).Paced (race'.run table' w schedule) := by
  induction schedule generalizing race race' with
  | nil => exact paced
  | cons i schedule ih => exact ih (paced.step w table table' i)

theorem Paced.isOver (paced : race.Paced race') (ended : race.IsOver) : race'.IsOver :=
  fun i => paced.tasks i ▸ ended i

end Fanout.Race
