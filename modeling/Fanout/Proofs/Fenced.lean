import Mathlib.Data.List.Basic
import Fanout.Proofs.Paces

/-! Parties that keep to keys and guards of their own. What a party does in a race for a table of
origins then depends on nothing that others do: every schedule comes to the same for it that lets it
do all its tasks. -/
namespace Fanout

/-- The keys and the guards of the parties are apart. -/
structure Fenced (keys : Nat → Key → Prop) (guards : Nat → GuardName → Prop) : Prop where
  keys_apart : ∀ i j key, keys i key → keys j key → i = j
  guards_apart : ∀ i j name, guards i name → guards j name → i = j
  places : ∀ i, ¬ keys i .nowhere
  made : ∀ i position, guards i (.made ⟨i, position⟩)

/-- What a party may be out for, if it is to keep to its own. -/
inductive Errand.Own (keys : Key → Prop) (guards : GuardName → Prop) : Errand → Prop
  | insert (key : Key) (h : HandlerId) (own : keys key) : Own keys guards (.insert key h)
  | remove (key : Key) (own : keys key) : Own keys guards (.remove key)
  | removeNowhere : Own keys guards (.remove .nowhere)
  | release (name : GuardName) (own : guards name) : Own keys guards (.release name)
  | nothing : Own keys guards .nothing

namespace Race
variable {keys : Nat → Key → Prop} {guards : Nat → GuardName → Prop} (w : World)

structure Within (keys : Nat → Key → Prop) (guards : Nat → GuardName → Prop)
    (race : Race Origins Origin) : Prop where
  errands : ∀ i, ∀ task ∈ (race.parties i).tasks, (task.errand w).Own (keys i) (guards i)
  receipts : ∀ i name receipt, guards i name → race.guards name = some receipt → keys i receipt.key
  nowhere : race.table .nowhere = none

/-- Two races are the same as far as a party is concerned. -/
structure Alike (keys : Key → Prop) (guards : GuardName → Prop) (i : Nat)
    (race race' : Race Origins Origin) : Prop where
  party : race.parties i = race'.parties i
  table : ∀ key, keys key → race.table key = race'.table key
  guards : ∀ name, guards name → race.guards name = race'.guards name
  stamps : race.stamps.filter (·.1.party = i) = race'.stamps.filter (·.1.party = i)

theorem Alike.refl (keys : Key → Prop) (guards : GuardName → Prop) (i : Nat)
    (race : Race Origins Origin) : race.Alike keys guards i race :=
  ⟨rfl, fun _ _ => rfl, fun _ _ => rfl, rfl⟩

theorem Alike.symm {keys : Key → Prop} {guards : GuardName → Prop} {i : Nat}
    {race race' : Race Origins Origin} (alike : race.Alike keys guards i race') :
    race'.Alike keys guards i race :=
  ⟨alike.party.symm, fun key own => (alike.table key own).symm,
    fun name own => (alike.guards name own).symm, alike.stamps.symm⟩

theorem Alike.trans {keys : Key → Prop} {guards : GuardName → Prop} {i : Nat}
    {race race' race'' : Race Origins Origin} (first : race.Alike keys guards i race')
    (second : race'.Alike keys guards i race'') : race.Alike keys guards i race'' :=
  ⟨first.party.trans second.party,
    fun key own => (first.table key own).trans (second.table key own),
    fun name own => (first.guards name own).trans (second.guards name own),
    first.stamps.trans second.stamps⟩

variable {race race' : Race Origins Origin}

/-- A step of a party changes nothing but what is its own. -/
structure Keeps (keys : Key → Prop) (guards : GuardName → Prop) (j : Nat)
    (race race' : Race Origins Origin) : Prop where
  parties : ∀ i ≠ j, race'.parties i = race.parties i
  table : ∀ key, ¬ keys key → race'.table key = race.table key
  guards : ∀ name, ¬ guards name → race'.guards name = race.guards name
  stamps : ∀ i ≠ j, race'.stamps.filter (·.1.party = i) = race.stamps.filter (·.1.party = i)

theorem Within.table_carryOut (within : race.Within w keys guards) {j : Nat} {task : Task}
    (own : (task.errand w).Own (keys j) (guards j)) {key : Key} (foreign : ¬ keys j key) :
    (race.carryOut Origins.table w j task).table key = race.table key := by
  unfold Race.carryOut
  generalize task.errand w = errand at own
  dsimp only
  cases own with
  | insert key h own =>
    cases (race.parties j).stamp with
    | none => rfl
    | some stamp => exact Function.update_of_ne (by rintro rfl; exact foreign own) _ _
  | remove key own => exact Function.update_of_ne (by rintro rfl; exact foreign own) _ _
  | removeNowhere =>
    simp only [Origins.table, Function.update_apply]
    split
    · rename_i same
      rw [same, within.nowhere]
    · rfl
  | release name own =>
    dsimp only
    cases held : race.guards name with
    | none => rfl
    | some receipt =>
      have mine := within.receipts j name receipt own held
      simp only [Origins.table]
      split
      · exact Function.update_of_ne (by rintro rfl; exact foreign mine) _ _
      · rfl
  | nothing => rfl

theorem guards_carryOut (fenced : Fenced keys guards) (race : Race Origins Origin) {j : Nat}
    {task : Task} (own : (task.errand w).Own (keys j) (guards j)) {name : GuardName}
    (foreign : ¬ guards j name) :
    (race.carryOut Origins.table w j task).guards name = race.guards name := by
  unfold Race.carryOut
  generalize task.errand w = errand at own
  dsimp only
  cases own with
  | insert key h own =>
    cases (race.parties j).stamp with
    | none => rfl
    | some stamp =>
      dsimp only
      split
      · exact Function.update_of_ne (by rintro rfl; exact foreign (fenced.made j _)) _ _
      · rfl
  | release name own =>
    dsimp only
    cases race.guards name with
    | none => rfl
    | some receipt => exact Function.update_of_ne (by rintro rfl; exact foreign own) _ _
  | remove | removeNowhere | nothing => rfl

theorem Within.carryOut_keeps (within : race.Within w keys guards) (fenced : Fenced keys guards)
    {j : Nat} {task : Task} (own : (task.errand w).Own (keys j) (guards j)) :
    race.Keeps (keys j) (guards j) j (race.carryOut Origins.table w j task) where
  parties _ other := parties_carryOut w Origins.table race other task
  table _ := within.table_carryOut w own
  guards _ := guards_carryOut w fenced race own
  stamps _ other := filter_stamps_carryOut w Origins.table race other task

theorem Within.carryOut (within : race.Within w keys guards) (fenced : Fenced keys guards)
    {j : Nat} {task : Task} (own : (task.errand w).Own (keys j) (guards j)) :
    (race.carryOut Origins.table w j task).Within w keys guards where
  errands i t member := within.errands i t (tasks_carryOut w _ race i j task t member)
  receipts i name receipt mine held := by
    rcases guards_of_carryOut w Origins.table held with old | ⟨key, h, stamp, errand, rfl, rfl⟩
    · exact within.receipts i name receipt mine old
    · obtain rfl := fenced.guards_apart i j _ mine (fenced.made j _)
      rw [errand] at own
      cases own with
      | insert key h own => exact own
  nowhere := by rw [within.table_carryOut w own (fenced.places j), within.nowhere]

theorem Keeps.alike {i j : Nat} (kept : race.Keeps (keys j) (guards j) j race')
    (fenced : Fenced keys guards) (other : i ≠ j) : race'.Alike (keys i) (guards i) i race where
  party := kept.parties i other
  table key own := kept.table key fun foreign => other (fenced.keys_apart i j key own foreign)
  guards name own :=
    kept.guards name fun foreign => other (fenced.guards_apart i j name own foreign)
  stamps := kept.stamps i other

theorem Alike.carryOut {i : Nat} (alike : race.Alike (keys i) (guards i) i race')
    (within : race.Within w keys guards) (within' : race'.Within w keys guards)
    {task : Task} (own : (task.errand w).Own (keys i) (guards i)) :
    (race.carryOut Origins.table w i task).Alike (keys i) (guards i) i
      (race'.carryOut Origins.table w i task) := by
  obtain ⟨party, table, receipts, stamps⟩ := alike
  have finished : ∀ removed, (race.finish w i task removed).parties i =
      (race'.finish w i task removed).parties i := by
    intro removed
    simp only [Race.finish, Function.update_self, party]
  have written : ∀ {key x}, ∀ other, keys i other →
      Function.update race.table key x other = Function.update race'.table key x other := by
    intro key x other own
    simp only [Function.update_apply, table other own]
  have handed : ∀ {name x}, ∀ other, guards i other →
      Function.update race.guards name x other = Function.update race'.guards name x other := by
    intro name x other own
    simp only [Function.update_apply, receipts other own]
  unfold Race.carryOut
  generalize task.errand w = errand at own
  dsimp only
  cases own with
  | insert key h own =>
    rw [party]
    cases (race'.parties i).stamp with
    | none =>
      refine ⟨?_, table, receipts, ?_⟩
      · simp only [Function.update_self, Origins.table]
      · simp only [Origins.table, List.filter_cons, stamps]
    | some stamp =>
      refine ⟨finished false, written, ?_, stamps⟩
      dsimp only
      split
      · exact handed
      · exact receipts
  | remove key own =>
    simp only [Origins.table, table key own]
    exact ⟨finished _, written, receipts, stamps⟩
  | removeNowhere =>
    simp only [Origins.table, within.nowhere, within'.nowhere]
    exact ⟨finished _, written, receipts, stamps⟩
  | release name own =>
    dsimp only
    rw [receipts name own]
    cases held : race'.guards name with
    | none => exact ⟨finished false, table, receipts, stamps⟩
    | some receipt =>
      have mine := within'.receipts i name receipt own held
      simp only [Origins.table, table receipt.key mine]
      split
      · exact ⟨finished true, written, handed, stamps⟩
      · exact ⟨finished false, table, handed, stamps⟩
  | nothing => exact ⟨finished false, table, receipts, stamps⟩

theorem Within.step (within : race.Within w keys guards) (fenced : Fenced keys guards) (j : Nat) :
    (race.step Origins.table w j).Within w keys guards := by
  cases first : (race.parties j).tasks with
  | nil => rwa [step_of_done w _ first]
  | cons task tasks =>
    rw [step_of_first w _ first]
    exact within.carryOut w fenced (within.errands j task (first ▸ List.mem_cons_self))

theorem Within.step_keeps (within : race.Within w keys guards) (fenced : Fenced keys guards)
    (j : Nat) : race.Keeps (keys j) (guards j) j (race.step Origins.table w j) := by
  cases first : (race.parties j).tasks with
  | nil =>
    rw [step_of_done w _ first]
    exact ⟨fun _ _ => rfl, fun _ _ => rfl, fun _ _ => rfl, fun _ _ => rfl⟩
  | cons task tasks =>
    rw [step_of_first w _ first]
    exact within.carryOut_keeps w fenced (within.errands j task (first ▸ List.mem_cons_self))

/-- A party does not notice the steps of others. -/
theorem Within.step_alike (within : race.Within w keys guards) (fenced : Fenced keys guards)
    {i j : Nat} (other : i ≠ j) :
    (race.step Origins.table w j).Alike (keys i) (guards i) i race :=
  (within.step_keeps w fenced j).alike fenced other

theorem Alike.step {i : Nat} (alike : race.Alike (keys i) (guards i) i race')
    (within : race.Within w keys guards) (within' : race'.Within w keys guards) :
    (race.step Origins.table w i).Alike (keys i) (guards i) i
      (race'.step Origins.table w i) := by
  cases first : (race.parties i).tasks with
  | nil => rwa [step_of_done w _ first, step_of_done w _ (alike.party ▸ first)]
  | cons task tasks =>
    rw [step_of_first w _ first, step_of_first w _ (alike.party ▸ first)]
    exact alike.carryOut w within within' (within.errands i task (first ▸ List.mem_cons_self))

/-- What a race comes to for a party is what it comes to if only this party takes its steps. -/
theorem Alike.run {i : Nat} (alike : race.Alike (keys i) (guards i) i race')
    (within : race.Within w keys guards) (within' : race'.Within w keys guards)
    (fenced : Fenced keys guards) (schedule : List Nat) :
    (race.run Origins.table w schedule).Alike (keys i) (guards i) i
      (race'.run Origins.table w (List.replicate (schedule.count i) i)) := by
  induction schedule generalizing race race' with
  | nil => exact alike
  | cons j schedule ih =>
    by_cases own : j = i
    · subst own
      rw [List.count_cons_self, List.replicate_succ]
      exact ih (alike.step w within within') (within.step w fenced j) (within'.step w fenced j)
    · rw [List.count_cons_of_ne own]
      have unnoticed := within.step_alike w fenced (Ne.symm own)
      exact ih (unnoticed.trans alike) (within.step w fenced j) within'

/-- All schedules with which a party comes to its end come to the same for it. -/
theorem Within.alike_of_done (within : race.Within w keys guards) (fenced : Fenced keys guards)
    {i : Nat} {schedule schedule' : List Nat}
    (done : ((race.run Origins.table w schedule).parties i).tasks = [])
    (done' : ((race.run Origins.table w schedule').parties i).tasks = []) :
    (race.run Origins.table w schedule).Alike (keys i) (guards i) i
      (race.run Origins.table w schedule') := by
  have alone := fun schedule =>
    (Alike.refl (keys i) (guards i) i race).run w within within fenced schedule
  have enough : ∀ {n k}, ((race.run Origins.table w (List.replicate n i)).parties i).tasks = [] →
      race.run Origins.table w (List.replicate (n + k) i) =
        race.run Origins.table w (List.replicate n i) := by
    intro n k done
    rw [List.replicate_add, Race.run, List.foldl_append]
    exact run_of_done w Origins.table done k
  have same : race.run Origins.table w (List.replicate (schedule.count i) i) =
      race.run Origins.table w (List.replicate (schedule'.count i) i) := by
    rcases Nat.le_total (schedule.count i) (schedule'.count i) with less | less
    · obtain ⟨k, more⟩ := Nat.exists_eq_add_of_le less
      rw [more, enough ((alone schedule).party ▸ done)]
    · obtain ⟨k, more⟩ := Nat.exists_eq_add_of_le less
      rw [more, enough ((alone schedule').party ▸ done')]
  exact (same ▸ alone schedule).trans (alone schedule').symm

/-- What belongs to nobody stays as it is. -/
theorem Within.run_untouched (within : race.Within w keys guards) (fenced : Fenced keys guards)
    (schedule : List Nat) :
    (∀ key, (∀ i, ¬ keys i key) →
      (race.run Origins.table w schedule).table key = race.table key) ∧
    ∀ name, (∀ i, ¬ guards i name) →
      (race.run Origins.table w schedule).guards name = race.guards name := by
  induction schedule generalizing race with
  | nil => exact ⟨fun _ _ => rfl, fun _ _ => rfl⟩
  | cons j schedule ih =>
    have kept := within.step_keeps w fenced j
    obtain ⟨table, receipts⟩ := ih (within.step w fenced j)
    exact ⟨fun key foreign => (table key foreign).trans (kept.table key (foreign j)),
      fun name foreign => (receipts name foreign).trans (kept.guards name (foreign j))⟩

/-- All schedules with which everybody comes to the end come to the same. -/
theorem Within.over_unique (within : race.Within w keys guards) (fenced : Fenced keys guards)
    {schedule schedule' : List Nat} (ended : (race.run Origins.table w schedule).IsOver)
    (ended' : (race.run Origins.table w schedule').IsOver) :
    let left := race.run Origins.table w schedule
    let right := race.run Origins.table w schedule'
    left.table = right.table ∧ left.guards = right.guards ∧ left.parties = right.parties ∧
      left.stamps.Perm right.stamps := by
  intro left right
  have alike := fun i => within.alike_of_done w fenced (ended i) (ended' i)
  obtain ⟨table, receipts⟩ := within.run_untouched w fenced schedule
  obtain ⟨table', receipts'⟩ := within.run_untouched w fenced schedule'
  refine ⟨funext fun key => ?_, funext fun name => ?_, funext fun i => (alike i).party, ?_⟩
  · by_cases owned : ∃ i, keys i key
    · obtain ⟨i, own⟩ := owned
      exact (alike i).table key own
    · rw [not_exists] at owned
      exact (table key owned).trans (table' key owned).symm
  · by_cases owned : ∃ i, guards i name
    · obtain ⟨i, own⟩ := owned
      exact (alike i).guards name own
    · rw [not_exists] at owned
      exact (receipts name owned).trans (receipts' name owned).symm
  · refine List.perm_iff_count.mpr fun e => ?_
    have mine : ∀ stamps : List (TaskId × Origin),
        (stamps.filter (·.1.party = e.1.party)).count e = stamps.count e :=
      fun stamps => List.count_filter (by simp)
    calc left.stamps.count e = (left.stamps.filter (·.1.party = e.1.party)).count e := (mine _).symm
      _ = (right.stamps.filter (·.1.party = e.1.party)).count e := by rw [(alike e.1.party).stamps]
      _ = right.stamps.count e := mine _

end Race
end Fanout
