import Mathlib
import Fanout.World

/-! Rosters whose keys are distinct, as all rosters of a world are: they are told apart by what
stands under each key, and an entry is in one exactly if it is found under its key. -/
namespace Fanout.Roster
variable {κ α : Type} [DecidableEq κ]

def keys (roster : Roster κ α) : List κ := roster.entries.map Prod.fst

/-- No key stands twice. -/
def Distinct (roster : Roster κ α) : Prop := roster.keys.Nodup

omit [DecidableEq κ] in
theorem distinct_empty : (({} : Roster κ α)).Distinct := by simp [Distinct, keys]

theorem mem_of_lookup {key : κ} {value : α} {entries : List (κ × α)}
    (h : lookup key entries = some value) : (key, value) ∈ entries := by
  induction entries with
  | nil => simp [lookup] at h
  | cons e es ih =>
    obtain ⟨k, x⟩ := e
    by_cases hk : k = key
    · simp only [lookup, hk, if_true, Option.some.injEq] at h
      simp [hk, h]
    · simp only [lookup, hk, if_false] at h
      exact List.mem_cons_of_mem _ (ih h)

theorem lookup_of_mem {key : κ} {value : α} {entries : List (κ × α)}
    (distinct : (entries.map Prod.fst).Nodup) (h : (key, value) ∈ entries) :
    lookup key entries = some value := by
  induction entries with
  | nil => simp at h
  | cons e es ih =>
    obtain ⟨k, x⟩ := e
    simp only [List.map_cons, List.nodup_cons] at distinct
    rcases List.mem_cons.mp h with he | he
    · simp only [Prod.mk.injEq] at he
      simp [lookup, he]
    · have hk : k ≠ key := fun hk =>
        distinct.1 (hk ▸ List.mem_map.mpr ⟨(key, value), he, rfl⟩)
      simp only [lookup, hk, if_false]
      exact ih distinct.2 he

theorem find?_eq_some_iff {roster : Roster κ α} (distinct : roster.Distinct) (key : κ) (value : α) :
    roster.find? key = some value ↔ (key, value) ∈ roster.entries :=
  ⟨mem_of_lookup, lookup_of_mem distinct⟩

theorem has_eq_false_iff (roster : Roster κ α) (key : κ) :
    roster.has key = false ↔ roster.find? key = none := by
  simp [has]

theorem mem_keys_iff (roster : Roster κ α) (key : κ) :
    key ∈ roster.keys ↔ roster.has key = true := by
  obtain ⟨entries⟩ := roster
  simp only [keys, has, find?]
  induction entries with
  | nil => simp [lookup]
  | cons e es ih =>
    obtain ⟨k, x⟩ := e
    rw [List.map_cons, List.mem_cons, ih]
    by_cases same : k = key
    · simp [lookup, same]
    · simp [lookup, same, Ne.symm same]

theorem keys_overwrite (key : κ) (value : α) (entries : List (κ × α)) :
    (overwrite key value entries).map Prod.fst =
      if key ∈ entries.map Prod.fst then entries.map Prod.fst
      else entries.map Prod.fst ++ [key] := by
  induction entries with
  | nil => simp [overwrite]
  | cons e es ih =>
    obtain ⟨k, x⟩ := e
    by_cases h : k = key
    · simp [overwrite, h]
    · have hne : key ≠ k := Ne.symm h
      by_cases hm : key ∈ es.map Prod.fst
      · simp only [overwrite, h, if_false, List.map_cons, ih, hm, if_true, List.mem_cons, or_true]
      · simp only [overwrite, h, if_false, List.map_cons, ih, hm, List.mem_cons, hne, false_or,
          List.cons_append]

theorem Distinct.put {roster : Roster κ α} (h : roster.Distinct) (key : κ) (value : α) :
    (roster.put key value).Distinct := by
  unfold Distinct keys Roster.put
  rw [keys_overwrite]
  split
  · exact h
  · rename_i hk
    exact List.nodup_append_comm.mp (List.nodup_cons.mpr ⟨hk, h⟩)

omit [DecidableEq κ] in
theorem Distinct.filter {roster : Roster κ α} (h : roster.Distinct) (p : κ × α → Bool) :
    (⟨roster.entries.filter p⟩ : Roster κ α).Distinct :=
  h.sublist (List.Sublist.map Prod.fst List.filter_sublist)

theorem Distinct.erase {roster : Roster κ α} (h : roster.Distinct) (key : κ) :
    (roster.erase key).Distinct := h.filter _

omit [DecidableEq κ] in
theorem Distinct.perm {roster : Roster κ α} (h : roster.Distinct) {order : List (κ × α)}
    (perm : order.Perm roster.entries) : (⟨order⟩ : Roster κ α).Distinct :=
  (perm.map Prod.fst).nodup_iff.mpr h

/-- The order of the entries does not matter to what is found. -/
theorem Distinct.find?_perm {roster : Roster κ α} (h : roster.Distinct) {order : List (κ × α)}
    (perm : order.Perm roster.entries) (key : κ) :
    (⟨order⟩ : Roster κ α).find? key = roster.find? key := by
  apply Option.ext
  intro value
  rw [find?_eq_some_iff (h.perm perm), find?_eq_some_iff h, perm.mem_iff]

/-- A value that a sweep keeps is still found, whatever stands behind it under its key. -/
theorem lookup_filter_of_kept {keep : κ × α → Bool} {key : κ}
    {value : α} {entries : List (κ × α)} (found : lookup key entries = some value)
    (kept : keep (key, value) = true) : lookup key (entries.filter keep) = some value := by
  induction entries with
  | nil => cases found
  | cons e entries ih =>
    obtain ⟨k, x⟩ := e
    by_cases same : k = key
    · subst same
      simp only [lookup, if_true, Option.some.injEq] at found
      subst found
      simp [kept, lookup]
    · simp only [lookup, same, if_false] at found
      rw [List.filter_cons]
      split
      · simpa only [lookup, same, if_false] using ih found
      · exact ih found

/-- What is left of a roster after a sweep: what stood under a key, if it is kept. -/
theorem find?_filter {roster : Roster κ α} (distinct : roster.Distinct) (p : κ × α → Bool)
    (key : κ) : (⟨roster.entries.filter p⟩ : Roster κ α).find? key =
      (roster.find? key).filter fun x => p (key, x) := by
  apply Option.ext
  intro value
  rw [find?_eq_some_iff (distinct.filter p)]
  simp only [List.mem_filter, Option.filter_eq_some_iff, find?_eq_some_iff distinct]

end Fanout.Roster
