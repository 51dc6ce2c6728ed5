import Fanout.Proofs.Traffic

/-! Parties that nobody disturbs. If a party goes through a registry and nothing else happens before
it is done, then what it has done is what a pass or a purge does to the world at once, but for the
order in which it has met the living handlers. -/
namespace Fanout
namespace World

def sparedOf (w : World) (entries : List (Key × Registration)) : List (Key × Registration) :=
  entries.filter fun e => w.alive e.2.handler

def livingOf (w : World) (entries : List (Key × Registration)) : List HandlerId :=
  (w.sparedOf entries).map (·.2.handler)

def deadOf (w : World) (entries : List (Key × Registration)) : Nat :=
  (entries.filter fun e => !w.alive e.2.handler).length

section
variable {w : World} {e : Key × Registration} {entries : List (Key × Registration)}

theorem sparedOf_cons_alive (alive : w.alive e.2.handler = true) :
    w.sparedOf (e :: entries) = e :: w.sparedOf entries := by simp [sparedOf, alive]

theorem sparedOf_cons_dead (dead : w.alive e.2.handler = false) :
    w.sparedOf (e :: entries) = w.sparedOf entries := by simp [sparedOf, dead]

theorem livingOf_cons_alive (alive : w.alive e.2.handler = true) :
    w.livingOf (e :: entries) = e.2.handler :: w.livingOf entries := by
  rw [livingOf, sparedOf_cons_alive alive, List.map_cons]
  rfl

theorem livingOf_cons_dead (dead : w.alive e.2.handler = false) :
    w.livingOf (e :: entries) = w.livingOf entries := by
  rw [livingOf, sparedOf_cons_dead dead]
  rfl

theorem deadOf_cons_alive (alive : w.alive e.2.handler = true) :
    w.deadOf (e :: entries) = w.deadOf entries := by simp [deadOf, alive]

theorem deadOf_cons_dead (dead : w.alive e.2.handler = false) :
    w.deadOf (e :: entries) = w.deadOf entries + 1 := by simp [deadOf, dead]

end

theorem snapshotOf_eq (w : World) (d : DispatcherId) : w.snapshotOf d =
    ⟨w.livingOf (w.registry d).entries.entries, w.deadOf (w.registry d).entries.entries⟩ := by
  rw [livingOf, sparedOf, deadOf, ← Registry.live_snapshot, ← Registry.dead_snapshot]
  rfl

theorem setRegistry_setRegistry (w : World) (d : DispatcherId) (registry registry' : Registry) :
    (w.setRegistry d registry).setRegistry d registry' = w.setRegistry d registry' := by
  simp only [setRegistry, List.modify_modify_eq]
  rfl

def cleared (w : World) (d : DispatcherId) (todo : List (Key × Registration)) : Registry :=
  { w.registry d with
    entries := ⟨(w.registry d).entries.entries.filter fun e => w.alive e.2.handler || e ∉ todo⟩ }

section
variable {w : World} {d : DispatcherId} {e : Key × Registration}
  {todo : List (Key × Registration)}

theorem cleared_nil : w.cleared d [] = w.registry d := by simp [cleared]

theorem cleared_all (all : todo.Perm (w.registry d).entries.entries) :
    w.cleared d todo = ((w.registry d).purge w.alive).2 := by
  have spared : ((w.registry d).entries.entries.filter
      fun e => w.alive e.2.handler || e ∉ todo) =
      (w.registry d).entries.entries.filter fun e => w.alive e.2.handler :=
    List.filter_congr fun e member => by simp [all.mem_iff.mpr member]
  rw [cleared, spared]
  rfl

theorem cleared_cons_alive (alive : w.alive e.2.handler = true) :
    w.cleared d (e :: todo) = w.cleared d todo := by
  have same : ∀ x : Key × Registration, (w.alive x.2.handler || x ∉ e :: todo) =
      (w.alive x.2.handler || x ∉ todo) := by
    intro x
    by_cases here : x = e <;> simp [here, alive]
  simp only [cleared, same]

theorem remove_of_found (at_key : (w.registry d).find? e.1 = some e.2) :
    ((w.registry d).remove e.1).2 =
      { w.registry d with entries := (w.registry d).entries.erase e.1 } := by
  have there : (w.registry d).entries.has e.1 = true := by
    rw [Roster.has, show (w.registry d).entries.find? e.1 = some e.2 from at_key]
    rfl
  rw [Registry.remove, if_pos there]

/-- It is the same to take one of the entries out first. -/
theorem cleared_cons_dead (distinct : (w.registry d).entries.Distinct)
    (at_key : (w.registry d).find? e.1 = some e.2) (dead : w.alive e.2.handler = false) :
    (w.setRegistry d ((w.registry d).remove e.1).2).cleared d todo = w.cleared d (e :: todo) := by
  have now := registry_setRegistry w (lt_of_entry (Roster.mem_of_lookup at_key))
    ((w.registry d).remove e.1).2
  have spared : ((w.registry d).entries.erase e.1).entries.filter
        (fun x => w.alive x.2.handler || x ∉ todo) =
      (w.registry d).entries.entries.filter fun x => w.alive x.2.handler || x ∉ e :: todo := by
    rw [Roster.erase, List.filter_filter]
    refine List.filter_congr fun x member => ?_
    have once : x.1 = e.1 ↔ x = e := by
      refine ⟨fun same => ?_, fun same => same ▸ rfl⟩
      have found := (Roster.find?_eq_some_iff distinct x.1 x.2).mpr member
      rw [same, show (w.registry d).entries.find? e.1 = some e.2 from at_key] at found
      exact Prod.ext same (Option.some.inj found).symm
    by_cases here : x = e
    · simp [here, dead]
    · simp [once, here]
  unfold cleared
  rw [now, remove_of_found at_key, ← spared]
  rfl

end

end World

namespace Traffic
open World
variable {w : World} {walk : Walk} {walks : List Walk}

/-- The first party goes to the keys of these entries, and nobody else takes a step. -/
def goThrough (t : Traffic) (entries : List (Key × Registration)) : Traffic :=
  t.run (entries.map fun e => .visit 0 e.1)

theorem goThrough_cons {e : Key × Registration} (reaches : walk.Reaches w e.1)
    (entries : List (Key × Registration)) :
    goThrough ⟨w, walk :: walks⟩ (e :: entries) =
      goThrough ⟨(w.visit walk e.1).1, (w.visit walk e.1).2 :: walks⟩ entries := by
  simp only [goThrough, run, List.map_cons, List.foldl_cons]
  congr 1
  simp [go, reaches, Traffic.visit]

theorem leads_goThrough {t t' : Traffic} {entries : List (Key × Registration)}
    (through : t.goThrough entries = t') : t.Leads t' := through ▸ t.run_leads _

theorem ahead_goPast {e : Key × Registration} {entries : List (Key × Registration)}
    (ahead : walk.ahead.Perm ((e :: entries).map Prod.fst)) :
    (walk.goPast e.1).ahead.Perm (entries.map Prod.fst) := by
  simpa [Walk.goPast] using ahead.erase e.1

/-- The induction is on the entries that are ahead; the registry stays as it is. -/
theorem goThrough_snapshot (walk : Walk) (walks : List Walk) (todo : List (Key × Registration))
    {p : PassId} (purpose : walk.purpose = .snapshot p)
    (there : ∀ e ∈ todo, (w.registry walk.dispatcher).find? e.1 = some e.2)
    (ahead : walk.ahead.Perm (todo.map Prod.fst)) :
    ∃ behind, goThrough ⟨w, walk :: walks⟩ todo =
      ⟨w.retainAll (w.livingOf todo), { walk with
        ahead := [], behind := behind
        found := ⟨walk.found.live ++ w.livingOf todo, walk.found.dead + w.deadOf todo⟩ }
          :: walks⟩ := by
  induction todo generalizing w walk with
  | nil =>
    refine ⟨walk.behind, ?_⟩
    have done : walk.ahead = [] := List.perm_nil.mp ahead
    simp only [livingOf, sparedOf, deadOf, List.filter_nil, List.map_nil, List.append_nil,
      List.length_nil, Nat.add_zero, ← done]
    rfl
  | cons e todo ih =>
    obtain ⟨at_key, others⟩ := List.forall_mem_cons.mp there
    have left := ahead_goPast ahead
    have reaches : walk.Reaches w e.1 := .inl (ahead.mem_iff.mpr (by simp))
    rw [goThrough_cons reaches]
    cases alive : w.alive e.2.handler with
    | true =>
      have visited : w.visit walk e.1 =
          (w.retain e.2.handler, (walk.goPast e.1).meet e.2.handler) := by
        simp [World.visit, at_key, purpose, alive]
      have still : (w.retain e.2.handler).alive = w.alive := alive_retain alive
      obtain ⟨behind, through⟩ := ih (w := w.retain e.2.handler)
        ((walk.goPast e.1).meet e.2.handler) purpose others left
      have living : (w.retain e.2.handler).livingOf todo = w.livingOf todo := by
        simp only [livingOf, sparedOf, still]
      have dead : (w.retain e.2.handler).deadOf todo = w.deadOf todo := by
        simp only [deadOf, still]
      rw [living, dead] at through
      refine ⟨behind, ?_⟩
      rw [visited, livingOf_cons_alive alive, deadOf_cons_alive alive, List.append_cons]
      exact through
    | false =>
      have visited : w.visit walk e.1 = (w, (walk.goPast e.1).miss) := by
        simp [World.visit, at_key, purpose, alive]
      obtain ⟨behind, through⟩ := ih (walk.goPast e.1).miss purpose others left
      refine ⟨behind, ?_⟩
      rw [visited, livingOf_cons_dead alive, deadOf_cons_dead alive, Nat.add_comm _ 1,
        ← Nat.add_assoc]
      exact through

/-- The entries that are still to come stand there when the one before them is taken out. -/
theorem there_takenOut {d : DispatcherId} {e : Key × Registration}
    {todo : List (Key × Registration)} (distinct : (w.registry d).entries.Distinct)
    (at_key : (w.registry d).find? e.1 = some e.2) (once : e.1 ∉ todo.map Prod.fst)
    (there : ∀ x ∈ todo, (w.registry d).find? x.1 = some x.2) :
    ((w.setRegistry d ((w.registry d).remove e.1).2).registry d).entries.Distinct ∧
      ∀ x ∈ todo,
        ((w.setRegistry d ((w.registry d).remove e.1).2).registry d).find? x.1 = some x.2 := by
  rw [registry_setRegistry w (lt_of_entry (Roster.mem_of_lookup at_key))]
  refine ⟨remove_of_found at_key ▸ distinct.erase e.1, fun x member => ?_⟩
  have other : e.1 ≠ x.1 := fun same => once (same ▸ List.mem_map_of_mem member)
  rw [Registry.find?_remove, if_neg other, there x member]

/-- Here the registry loses the entries that the party has come to and found dead. -/
theorem goThrough_sweep (walk : Walk) (walks : List Walk) (todo : List (Key × Registration))
    (purging : ∀ p, walk.purpose ≠ .snapshot p)
    (distinct : (w.registry walk.dispatcher).entries.Distinct)
    (there : ∀ e ∈ todo, (w.registry walk.dispatcher).find? e.1 = some e.2)
    (once : (todo.map Prod.fst).Nodup) (ahead : walk.ahead.Perm (todo.map Prod.fst)) :
    ∃ behind, goThrough ⟨w, walk :: walks⟩ todo =
      ⟨w.setRegistry walk.dispatcher (w.cleared walk.dispatcher todo),
        { walk with ahead := [], behind := behind, purged := walk.purged + w.deadOf todo }
          :: walks⟩ := by
  induction todo generalizing w walk with
  | nil =>
    refine ⟨walk.behind, ?_⟩
    have done : walk.ahead = [] := List.perm_nil.mp ahead
    rw [cleared_nil, registry_setRegistry_self]
    simp only [deadOf, List.filter_nil, List.length_nil, Nat.add_zero, ← done]
    rfl
  | cons e todo ih =>
    obtain ⟨at_key, others⟩ := List.forall_mem_cons.mp there
    obtain ⟨only, once⟩ := List.nodup_cons.mp once
    have left := ahead_goPast ahead
    have reaches : walk.Reaches w e.1 := .inl (ahead.mem_iff.mpr (by simp))
    rw [goThrough_cons reaches]
    have visits := w.visits_visit walk e.1
    generalize w.visit walk e.1 = result at visits
    cases visits with
    | absent none_there => rw [at_key] at none_there; cases none_there
    | met purpose at_key' alive => exact absurd purpose (purging _)
    | missed purpose at_key' dead => exact absurd purpose (purging _)
    | spared purging' at_key' alive =>
      rw [at_key, Option.some.injEq] at at_key'
      subst at_key'
      obtain ⟨behind, through⟩ := ih (walk.goPast e.1) purging distinct others once left
      refine ⟨behind, ?_⟩
      rw [deadOf_cons_alive alive, cleared_cons_alive alive]
      exact through
    | evicted purging' at_key' dead =>
      rw [at_key, Option.some.injEq] at at_key'
      subst at_key'
      obtain ⟨still, others_there⟩ := there_takenOut distinct at_key only others
      obtain ⟨behind, through⟩ :=
        ih (walk.goPast e.1).takeOut purging still others_there once left
      refine ⟨behind, through.trans ?_⟩
      have written := setRegistry_setRegistry w walk.dispatcher
        ((w.registry walk.dispatcher).remove e.1).2 (w.cleared walk.dispatcher (e :: todo))
      rw [deadOf_cons_dead dead, Nat.add_comm _ 1, ← Nat.add_assoc, ← written,
        ← cleared_cons_dead distinct at_key dead]
      rfl

section
variable {d : DispatcherId} (distinct : (w.registry d).entries.Distinct)
  {order : List (Key × Registration)} (all : order.Perm (w.registry d).entries.entries)
include distinct all

theorem find?_of_all : ∀ e ∈ order, (w.registry d).find? e.1 = some e.2 := fun e member =>
  (Roster.find?_eq_some_iff distinct e.1 e.2).mpr (all.mem_iff.mp member)

/-- A snapshot finds the living handlers, in the order in which it comes to their entries. -/
theorem snapshot_through (walks : List Walk) (p : PassId) :
    ∃ behind, goThrough ⟨w, w.setOut d (.snapshot p) :: walks⟩ order =
      ⟨w.retainAll (w.livingOf order), { w.setOut d (.snapshot p) with
        ahead := [], behind := behind, found := ⟨w.livingOf order, w.deadOf order⟩ }
          :: walks⟩ := by
  obtain ⟨behind, through⟩ := goThrough_snapshot (w.setOut d (.snapshot p)) walks order rfl
    (find?_of_all distinct all) (all.symm.map Prod.fst)
  simp only [setOut, List.nil_append, Nat.zero_add] at through
  exact ⟨behind, through⟩

/-- For a purge the order does not matter. -/
theorem sweep_through (walk : Walk) (walks : List Walk) (dispatcher : walk.dispatcher = d)
    (purging : ∀ p, walk.purpose ≠ .snapshot p) (ahead : walk.ahead = w.keysOf d)
    (none_yet : walk.purged = 0) :
    ∃ behind, goThrough ⟨w, walk :: walks⟩ order =
      ⟨w.setRegistry d ((w.registry d).purge w.alive).2,
        { walk with
          ahead := [], behind := behind, purged := ((w.registry d).purge w.alive).1 }
          :: walks⟩ := by
  subst dispatcher
  have once : (order.map Prod.fst).Nodup := (all.map Prod.fst).nodup_iff.mpr distinct
  obtain ⟨behind, through⟩ := goThrough_sweep walk walks order purging distinct
    (find?_of_all distinct all) once (ahead ▸ all.symm.map Prod.fst)
  have count : walk.purged + w.deadOf order =
      ((w.registry walk.dispatcher).purge w.alive).1 := by
    rw [none_yet, Nat.zero_add, Registry.count_purge]
    exact (all.filter _).length_eq
  rw [cleared_all all, count] at through
  exact ⟨behind, through⟩

end

theorem arrive_head (w : World) (walk : Walk) (walks : List Walk) (done : walk.ahead = []) :
    Traffic.Step ⟨w, walk :: walks⟩ ⟨(w.arrive walk).1, (w.arrive walk).2.toList ++ walks⟩ := by
  have step := Traffic.Step.arrive (t := ⟨w, walk :: walks⟩) (i := 0) rfl done
  unfold Traffic.arrive at step
  dsimp only at step
  generalize w.arrive walk = result at step ⊢
  rcases result with ⟨after, _ | next⟩
  · exact step
  · exact step

/-- A purge that nobody disturbs is a purge at once. -/
theorem leads_purge {d : DispatcherId} (named : w.Named d)
    (distinct : (w.registry d).entries.Distinct) :
    Traffic.Leads ⟨w, walks⟩ ⟨(w.purge d none).1, walks⟩ := by
  obtain ⟨behind, swept⟩ := sweep_through distinct (.refl _) (w.setOut d .purge) walks rfl
    (by simp [setOut]) rfl rfl
  exact .head (.demand named) ((leads_goThrough swept).tail (arrive_head _ _ _ rfl))

/-- The party that polls a pass, when it has come to all keys. -/
def surveyor (w : World) (p : PassId) (d : DispatcherId) (behind : List Key) : Walk :=
  { dispatcher := d, purpose := .snapshot p, ahead := [], behind, found := w.snapshotOf d }

section
variable {p : PassId} {pass : Pass} (found : w.passes[p]? = some pass)
  (fresh : pass.phase = .fresh) (free : ¬ Traffic.Opens ⟨w, walks⟩ p)
  (distinct : (w.registry pass.dispatcher).entries.Distinct)
include found fresh free distinct

theorem leads_surveyor : ∃ behind, Traffic.Leads ⟨w, walks⟩
    ⟨w.retainAll (w.snapshotOf pass.dispatcher).live,
      surveyor w p pass.dispatcher behind :: walks⟩ := by
  obtain ⟨behind, surveyed⟩ := snapshot_through distinct (.refl _) walks p
  refine ⟨behind, .head (.poll found fresh free) ?_⟩
  unfold surveyor
  rw [snapshotOf_eq]
  exact leads_goThrough surveyed

/-- So is the first poll of a pass. -/
theorem leads_openPass : Traffic.Leads ⟨w, walks⟩ ⟨(w.openPass p pass).1, walks⟩ := by
  obtain ⟨behind, surveyed⟩ := leads_surveyor found fresh free distinct
  refine surveyed.trans ?_
  clear surveyed
  have still : ((w.retainAll (w.snapshotOf pass.dispatcher).live).registry
      pass.dispatcher).entries.Distinct := by
    rw [registry_of_dispatchers (Aside.retainAll w _).dispatchers]
    exact distinct
  rw [openPass_fst, World.survey]
  generalize w.retainAll (w.snapshotOf pass.dispatcher).live = held at still ⊢
  have arrived := arrive_head held (surveyor w p pass.dispatcher behind) walks rfl
  unfold World.arrive surveyor at arrived
  dsimp only at arrived
  unfold sweep
  split at arrived
  · rename_i clean
    rw [if_pos clean]
    exact .single arrived
  · rename_i dirty
    rw [if_neg dirty]
    obtain ⟨behind', swept⟩ := sweep_through (w := held) still (.refl _)
      { surveyor w p pass.dispatcher behind with
        purpose := .sweep p, ahead := held.keysOf pass.dispatcher, behind := [] }
      walks rfl (by simp) rfl rfl
    exact .head arrived ((leads_goThrough swept).tail (arrive_head _ _ _ rfl))

end

end Traffic
end Fanout
