import Fanout.Proofs.Guards

/-! Traffic: worlds in which parties are on their way through registries while everything else goes
on. References are accounted for, entries stand where they belong, and each pass is polled by one
party at most, whatever the order in which the parties take their steps. -/
namespace Fanout

namespace World

inductive Visits (w : World) (walk : Walk) (key : Key) : World × Walk → Prop
  | absent (none_there : (w.registry walk.dispatcher).find? key = none) :
      Visits w walk key (w, walk.goPast key)
  | met {p : PassId} {entry : Registration} (purpose : walk.purpose = .snapshot p)
      (at_key : (w.registry walk.dispatcher).find? key = some entry)
      (alive : w.alive entry.handler = true) :
      Visits w walk key (w.retain entry.handler, (walk.goPast key).meet entry.handler)
  | missed {p : PassId} {entry : Registration} (purpose : walk.purpose = .snapshot p)
      (at_key : (w.registry walk.dispatcher).find? key = some entry)
      (dead : w.alive entry.handler = false) :
      Visits w walk key (w, (walk.goPast key).miss)
  | spared {entry : Registration} (purging : ∀ p, walk.purpose ≠ .snapshot p)
      (at_key : (w.registry walk.dispatcher).find? key = some entry)
      (alive : w.alive entry.handler = true) :
      Visits w walk key (w, walk.goPast key)
  | evicted {entry : Registration} (purging : ∀ p, walk.purpose ≠ .snapshot p)
      (at_key : (w.registry walk.dispatcher).find? key = some entry)
      (dead : w.alive entry.handler = false) :
      Visits w walk key
        (w.setRegistry walk.dispatcher ((w.registry walk.dispatcher).remove key).2,
          (walk.goPast key).takeOut)

theorem visits_visit (w : World) (walk : Walk) (key : Key) :
    w.Visits walk key (w.visit walk key) := by
  unfold visit
  split
  · rename_i none_there
    exact .absent none_there
  · rename_i entry p at_key purpose
    split
    · rename_i alive
      exact .met purpose at_key alive
    · rename_i dead
      exact .missed purpose at_key (Bool.eq_false_of_not_eq_true dead)
  · rename_i entry _ at_key purging
    split
    · rename_i alive
      exact .spared purging at_key alive
    · rename_i dead
      exact .evicted purging at_key (Bool.eq_false_of_not_eq_true dead)

/-- The pass is opened with what the party found. -/
def tellOpened (w : World) (walk : Walk) (p : PassId) (events : List Event) : World :=
  { w with history :=
      .opened p walk.dispatcher walk.found.live walk.found.dead :: events ++ w.history }

inductive Arrives (w : World) (walk : Walk) : World × Option Walk → Prop
  | opened {p : PassId} {events : List Event} (polls : walk.purpose.pass? = some p)
      (swept : ∀ event ∈ events, ∃ count, event = .purged walk.dispatcher (some p) count) :
      Arrives w walk
        ((w.tellOpened walk p events).enterPass p walk.dispatcher walk.found.live, none)
  | turned {p : PassId} (purpose : walk.purpose = .snapshot p) :
      Arrives w walk
        (w, some { walk with
          purpose := .sweep p, ahead := w.keysOf walk.dispatcher, behind := [] })
  | purged (purpose : walk.purpose = .purge) :
      Arrives w walk (w.record (.purged walk.dispatcher none walk.purged), none)

theorem arrives_arrive (w : World) (walk : Walk) : w.Arrives walk (w.arrive walk) := by
  unfold arrive
  cases purpose : walk.purpose with
  | snapshot p =>
    dsimp only
    split
    · exact @Arrives.opened w walk p [] (by rw [purpose]; rfl) (by simp)
    · exact .turned purpose
  | sweep p =>
    exact @Arrives.opened w walk p [.purged walk.dispatcher (some p) walk.purged]
      (by rw [purpose]; rfl) (by simp)
  | purge => exact .purged purpose

theorem dispatchers_arrive (w : World) (walk : Walk) :
    (w.arrive walk).1.dispatchers = w.dispatchers := by
  have arrives := w.arrives_arrive walk
  cases result : w.arrive walk with
  | mk after next =>
    rw [result] at arrives
    cases arrives with
    | opened polls swept => exact (Aside.enterPass (w.tellOpened walk _ _) _ _ _).dispatchers
    | turned purpose => rfl
    | purged purpose => rfl

theorem passes_visit (w : World) (walk : Walk) (key : Key) :
    (w.visit walk key).1.passes = w.passes := by
  have visits := w.visits_visit walk key
  generalize w.visit walk key = result at visits
  cases visits <;> rfl

theorem history_visit (w : World) (walk : Walk) (key : Key) :
    (w.visit walk key).1.history = w.history := by
  have visits := w.visits_visit walk key
  generalize w.visit walk key = result at visits
  cases visits <;> rfl

/-- What a party has met it had met before, or it lives. -/
theorem mem_live_visit {w : World} {walk : Walk} {key : Key} {x : HandlerId}
    (met : x ∈ (w.visit walk key).2.found.live) : x ∈ walk.found.live ∨ w.alive x = true := by
  have visits := w.visits_visit walk key
  generalize w.visit walk key = result at visits met
  cases visits with
  | met purpose there alive =>
    rcases List.mem_append.mp met with before | here
    · exact .inl before
    · exact .inr (List.mem_singleton.mp here ▸ alive)
  | _ => exact .inl met

theorem purpose_visit (w : World) (walk : Walk) (key : Key) :
    (w.visit walk key).2.purpose = walk.purpose := by
  have visits := w.visits_visit walk key
  generalize w.visit walk key = result at visits
  cases visits <;> rfl

/-- Only one entry is taken out of a registry. -/
theorem find?_takenOut (w : World) (d : DispatcherId) (key : Key) (e : DispatcherId) (other : Key) :
    ((w.setRegistry d ((w.registry d).remove key).2).registry e).find? other =
      if d = e ∧ key = other then none else (w.registry e).find? other := by
  by_cases same : d = e
  · subst same
    have written : (w.setRegistry d ((w.registry d).remove key).2).registry d =
        ((w.registry d).remove key).2 := by
      rcases Nat.lt_or_ge d w.dispatchers.length with there | beyond
      · exact registry_setRegistry w there _
      · rw [registry_of_le (by simpa [setRegistry] using beyond), registry_of_le beyond]
        rfl
    rw [written, Registry.find?_remove]
    simp
  · rw [registry_setRegistry_of_ne w same]
    simp [same]

theorem distinct_takenOut {w : World} {e : DispatcherId} (distinct : (w.registry e).entries.Distinct)
    (d : DispatcherId) (key : Key) :
    ((w.setRegistry d ((w.registry d).remove key).2).registry e).entries.Distinct := by
  by_cases same : d = e
  · subst same
    rcases Nat.lt_or_ge d w.dispatchers.length with there | beyond
    · rw [registry_setRegistry w there]
      unfold Registry.remove
      split
      · exact distinct.erase key
      · exact distinct
    · rw [registry_of_le (by simpa [setRegistry] using beyond)]
      exact Roster.distinct_empty
  · rw [registry_setRegistry_of_ne w same]
    exact distinct

/-- A party on its way writes no entry. -/
theorem find?_visit {w : World} {walk : Walk} {at_hand : Key} {d : DispatcherId} {key : Key}
    {entry : Registration}
    (at_key : ((w.visit walk at_hand).1.registry d).find? key = some entry) :
    (w.registry d).find? key = some entry := by
  have visits := w.visits_visit walk at_hand
  generalize w.visit walk at_hand = result at visits at_key
  cases visits with
  | absent none_there => exact at_key
  | met purpose there alive =>
    rwa [registry_of_dispatchers (Aside.retain _ _).dispatchers] at at_key
  | missed purpose there dead => exact at_key
  | spared purging there alive => exact at_key
  | evicted purging there dead =>
    rw [find?_takenOut] at at_key
    split at at_key
    · cases at_key
    · exact at_key

end World

/-- Whatever parties are on their way, the world is in order: the references that they hold are
accounted for, and each pass that one of them polls is fresh, and no other party polls it. -/
structure Orderly (w : World) (walks : List Walk) : Prop where
  recorded : w.Recorded
  balanced : w.Balanced (walks.flatMap fun walk => walk.found.live)
  placed : w.Placed
  fresh : ∀ walk ∈ walks, ∀ p, walk.purpose.pass? = some p → ∃ pass, w.passes[p]? = some pass ∧
    pass.phase = .fresh ∧ pass.dispatcher = walk.dispatcher
  alone : (walks.filterMap fun walk => walk.purpose.pass?).Nodup
  empty : ∀ walk ∈ walks, walk.purpose = .purge → walk.found.live = []

namespace World

theorem recorded_of_same {w w' : World} (recorded : w.Recorded) (passes : w'.passes = w.passes)
    (marks : w'.marks = w.marks) : w'.Recorded :=
  PassStep.recorded (.unchanged passes marks : PassStep (fun _ => False) w w') recorded

/-- Where an entry is taken out, all others stand where they belong. -/
theorem Placed.takeOut {w : World} (placed : w.Placed) (d : DispatcherId) (key : Key) :
    (w.setRegistry d ((w.registry d).remove key).2).Placed := by
  have fewer : ∀ e other entry,
      ((w.setRegistry d ((w.registry d).remove key).2).registry e).find? other = some entry →
        (w.registry e).find? other = some entry := by
    intro e other entry found
    rw [find?_takenOut] at found
    split at found
    · cases found
    · exact found
  have distinct := fun e => distinct_takenOut (placed.distinct e) d key
  have reserved : ∀ h handler,
      (w.setRegistry d ((w.registry d).remove key).2).isReserved h handler = true →
        w.isReserved h handler = true := by
    intro h handler reserved
    rw [isReserved_iff] at reserved ⊢
    refine reserved.imp id (Or.imp id ?_)
    rintro ⟨e, there, kept, entry, member, rfl⟩
    have before := fewer e entry.1 entry.2
      ((Roster.find?_eq_some_iff (distinct e) entry.1 entry.2).mpr member)
    exact ⟨e, by simpa [setRegistry] using there, kept, _, Roster.mem_of_lookup before, rfl⟩
  refine ⟨fun e named => ?_, distinct, fun e other entry found => ?_, ?_⟩
  · simpa [setRegistry] using placed.there e named
  · exact placed.at_home e other entry (fewer e other entry found)
  · intro h h' handler handler' found found' at_h at_h' same
    exact placed.apart h h' handler handler' found found' (reserved h handler at_h)
      (reserved h' handler' at_h') same

/-- A reference more to a living handler moves nothing. -/
theorem Placed.retain {w : World} (placed : w.Placed) {extra : List HandlerId}
    (balanced : w.Balanced extra) {h : HandlerId} (alive : w.alive h = true) :
    (w.retain h).Placed :=
  TableStep.placed (.aside (.retain w h)) placed (fun _ => .inl) balanced (balanced.retain alive)

theorem PassStep.entering {w : World} {p : PassId} {pass : Pass}
    (found : w.passes[p]? = some pass) (fresh : pass.phase = .fresh) (d : DispatcherId)
    (live : List HandlerId) : PassStep (· = p) w (w.enterPass p d live) := by
  obtain ⟨pass', becomes, passes⟩ :=
    enterPass_becomes found fresh (show p = p from rfl) (w.IsInner p pass) d live
  exact .turned found becomes passes (marks_enterPass found d live)

section
variable {w : World} {walk : Walk} {p : PassId} {events : List Event}
  (swept : ∀ event ∈ events, ∃ count, event = .purged walk.dispatcher (some p) count)
include swept

theorem marks_tellOpened : (w.tellOpened walk p events).marks = w.marks := by
  have unmarked : events.filter Event.isMark = [] := by
    apply List.filter_eq_nil_iff.mpr
    intro event member
    obtain ⟨count, rfl⟩ := swept event member
    simp [Event.isMark]
  simp [marks, tellOpened, Event.isMark, List.filter_append, unmarked]

theorem Balanced.tellOpened {extra : List HandlerId} (b : w.Balanced extra) :
    (w.tellOpened walk p events).Balanced extra := by
  refine b.shift (Balanced.same_handlers rfl) (fun _ => rfl) fun h => ?_
  have silent : .reclaimed h ∉ events := by
    intro member
    obtain ⟨count, same⟩ := swept _ member
    cases same
  simp [World.tellOpened, silent]

end
end World

namespace Orderly
open World
variable {w w' : World} {walk walk' : Walk} {walks walks' rest : List Walk}

theorem perm (h : Orderly w walks) (same : walks'.Perm walks) : Orderly w walks' where
  recorded := h.recorded
  balanced := h.balanced.perm (same.flatMap_right _)
  placed := h.placed
  fresh := fun walk member => h.fresh walk (same.mem_iff.mp member)
  alone := (same.filterMap _).nodup_iff.mpr h.alone
  empty := fun walk member => h.empty walk (same.mem_iff.mp member)

/-- One party goes on, and polls the same pass as before, if any. -/
theorem goOn (h : Orderly w (walk :: rest)) (passes : w'.passes = w.passes)
    (marks : w'.marks = w.marks) (placed : w'.Placed)
    (balanced : w'.Balanced (walk'.found.live ++ rest.flatMap fun walk => walk.found.live))
    (dispatcher : walk'.dispatcher = walk.dispatcher)
    (pass : walk'.purpose.pass? = walk.purpose.pass?)
    (empty : walk'.purpose = .purge → walk'.found.live = []) : Orderly w' (walk' :: rest) := by
  refine ⟨recorded_of_same h.recorded passes marks, balanced, placed, ?_, ?_, ?_⟩
  · rw [passes]
    refine List.forall_mem_cons.mpr ⟨fun p polls => ?_, (List.forall_mem_cons.mp h.fresh).2⟩
    rw [dispatcher]
    exact h.fresh walk List.mem_cons_self p (pass ▸ polls)
  · have alone := h.alone
    rw [List.filterMap_cons] at alone ⊢
    rwa [pass]
  · exact List.forall_mem_cons.mpr ⟨empty, (List.forall_mem_cons.mp h.empty).2⟩

theorem visit (h : Orderly w (walk :: rest)) (key : Key) :
    Orderly (w.visit walk key).1 ((w.visit walk key).2 :: rest) := by
  have empty := h.empty walk List.mem_cons_self
  have visits := w.visits_visit walk key
  cases result : w.visit walk key with
  | mk after next =>
    rw [result] at visits
    have balanced := h.balanced
    rw [List.flatMap_cons] at balanced
    cases visits with
    | absent none_there => exact h.goOn rfl rfl h.placed balanced rfl rfl empty
    | @met p entry purpose at_key alive =>
      refine h.goOn rfl rfl (h.placed.retain balanced alive) ?_ rfl rfl fun purging => ?_
      · refine (balanced.retain alive).perm ?_
        show (walk.found.live ++ [entry.handler] ++ _).Perm _
        rw [List.append_assoc]
        exact List.perm_middle
      · rw [show walk.purpose = .purge from purging] at purpose
        cases purpose
    | missed purpose at_key dead => exact h.goOn rfl rfl h.placed balanced rfl rfl empty
    | spared purging at_key alive => exact h.goOn rfl rfl h.placed balanced rfl rfl empty
    | evicted purging at_key dead =>
      exact h.goOn rfl rfl (h.placed.takeOut _ _) (balanced.of_eq rfl rfl rfl) rfl rfl empty

/-- A party opens the pass that it polls. -/
theorem enter (h : Orderly w (walk :: rest)) {p : PassId} {events : List Event}
    (polls : walk.purpose.pass? = some p)
    (swept : ∀ event ∈ events, ∃ count, event = .purged walk.dispatcher (some p) count) :
    Orderly ((w.tellOpened walk p events).enterPass p walk.dispatcher walk.found.live) rest := by
  obtain ⟨pass, found, fresh, -⟩ := h.fresh walk List.mem_cons_self p polls
  have step := PassStep.entering (w := w.tellOpened walk p events) found fresh walk.dispatcher
    walk.found.live
  obtain ⟨pass', -, passes⟩ := enterPass_becomes (w := w.tellOpened walk p events) found fresh
    trivial (fun _ _ => True) walk.dispatcher walk.found.live
  have told : (w.tellOpened walk p events).Recorded :=
    recorded_of_same h.recorded rfl (marks_tellOpened swept)
  have balanced := h.balanced.tellOpened swept
  rw [List.flatMap_cons] at balanced
  have entered := balanced.enterPass found ((h.recorded.sound p pass found).fresh_empty fresh)
    walk.dispatcher
  have there : (w.tellOpened walk p events).Placed :=
    ⟨h.placed.there, h.placed.distinct, h.placed.at_home, h.placed.apart⟩
  have alone := h.alone
  rw [List.filterMap_cons, polls, List.nodup_cons] at alone
  refine ⟨step.recorded told, entered, ?_, fun other member q other_polls => ?_, alone.2,
    (List.forall_mem_cons.mp h.empty).2⟩
  · exact TableStep.placed (.aside (.enterPass _ _ _ _)) there
      (fun d => TableStep.keeps (.aside (.enterPass _ _ _ _)) step) balanced entered
  · have different : p ≠ q := by
      rintro rfl
      exact alone.1 (List.mem_filterMap.mpr ⟨other, member, other_polls⟩)
    rw [passes, List.getElem?_set_ne different]
    exact h.fresh other (List.mem_cons_of_mem _ member) q other_polls

theorem arrive (h : Orderly w (walk :: rest)) :
    Orderly (w.arrive walk).1 ((w.arrive walk).2.toList ++ rest) := by
  have arrives := w.arrives_arrive walk
  cases result : w.arrive walk with
  | mk after next =>
    rw [result] at arrives
    cases arrives with
    | opened polls swept => exact h.enter polls swept
    | turned purpose =>
      refine h.goOn rfl rfl h.placed ?_ rfl (by rw [purpose]; rfl) fun purging => by cases purging
      have balanced := h.balanced
      rwa [List.flatMap_cons] at balanced
    | purged purpose =>
      have none_held := h.empty walk List.mem_cons_self purpose
      have balanced := h.balanced
      rw [List.flatMap_cons, none_held, List.nil_append] at balanced
      have alone := h.alone
      rw [List.filterMap_cons, purpose] at alone
      exact ⟨recorded_of_same h.recorded rfl rfl, balanced.record (by simp),
        ⟨h.placed.there, h.placed.distinct, h.placed.at_home, h.placed.apart⟩,
        (List.forall_mem_cons.mp h.fresh).2, alone, (List.forall_mem_cons.mp h.empty).2⟩

end Orderly

namespace Traffic

/-- A party is polling the pass for the first time. -/
def Opens (t : Traffic) (p : PassId) : Prop := ∃ walk ∈ t.walks, walk.purpose.pass? = some p

inductive Step (t : Traffic) : Traffic → Prop
  /-- Something else happens; what is being polled by a party is not polled or dropped by others. -/
  | progress {w : World} (progress : t.world.Progress w)
      (apart : ∀ p, t.Opens p → w.passes[p]? = t.world.passes[p]?) : Step t ⟨w, t.walks⟩
  | poll {p : PassId} {pass : Pass} (found : t.world.passes[p]? = some pass)
      (fresh : pass.phase = .fresh) (free : ¬ t.Opens p) :
      Step t ⟨t.world, t.world.setOut pass.dispatcher (.snapshot p) :: t.walks⟩
  | demand {d : DispatcherId} (named : t.world.Named d) :
      Step t ⟨t.world, t.world.setOut d .purge :: t.walks⟩
  | visit {i : Nat} {walk : Walk} (there : t.walks[i]? = some walk) {key : Key}
      (reaches : walk.Reaches t.world key) : Step t (t.visit i walk key)
  | arrive {i : Nat} {walk : Walk} (there : t.walks[i]? = some walk) (done : walk.ahead = []) :
      Step t (t.arrive i walk)

abbrev Leads : Traffic → Traffic → Prop := Relation.ReflTransGen Step

def Reached (t : Traffic) : Prop :=
  ∃ arity blueprints, Traffic.Leads ⟨{ arity, blueprints }, []⟩ t

theorem walks_perm {walks : List Walk} {i : Nat} {walk : Walk} (there : walks[i]? = some walk) :
    (walk :: walks.eraseIdx i).Perm walks := by
  obtain ⟨small, rfl⟩ := List.getElem?_eq_some_iff.mp there
  exact List.getElem_cons_eraseIdx_perm small

theorem set_perm {walks : List Walk} {i : Nat} {walk : Walk} (there : walks[i]? = some walk)
    (walk' : Walk) : (walks.set i walk').Perm (walk' :: walks.eraseIdx i) := by
  obtain ⟨small, rfl⟩ := List.getElem?_eq_some_iff.mp there
  exact List.set_perm_cons_eraseIdx small walk'

theorem arrive_perm {t : Traffic} {i : Nat} {walk : Walk} (there : t.walks[i]? = some walk) :
    (t.arrive i walk).world = (t.world.arrive walk).1 ∧
      (t.arrive i walk).walks.Perm ((t.world.arrive walk).2.toList ++ t.walks.eraseIdx i) := by
  unfold arrive
  rcases t.world.arrive walk with ⟨w, _ | walk'⟩
  · exact ⟨rfl, .refl _⟩
  · exact ⟨rfl, set_perm there walk'⟩

theorem Step.orderly {t t' : Traffic} (step : t.Step t') (h : Orderly t.world t.walks) :
    Orderly t'.world t'.walks := by
  cases step with
  | progress progress apart =>
    have balanced := progress.balanced h.recorded h.balanced
    refine ⟨progress.passStep.choose_spec.recorded h.recorded, balanced,
      progress.tableStep.placed h.placed (fun d => progress.keeps) h.balanced balanced,
      fun walk member p polls => ?_, h.alone, h.empty⟩
    rw [apart p ⟨walk, member, polls⟩]
    exact h.fresh walk member p polls
  | @poll p pass found fresh free =>
    refine ⟨h.recorded, h.balanced, h.placed, ?_, ?_, ?_⟩
    · refine List.forall_mem_cons.mpr ⟨fun q polls => ?_, h.fresh⟩
      cases polls
      exact ⟨pass, found, fresh, rfl⟩
    · refine List.nodup_cons.mpr ⟨fun polled => free ?_, h.alone⟩
      obtain ⟨walk, member, polls⟩ := List.mem_filterMap.mp polled
      exact ⟨walk, member, polls⟩
    · exact List.forall_mem_cons.mpr ⟨fun _ => rfl, h.empty⟩
  | demand named =>
    refine ⟨h.recorded, h.balanced, h.placed, ?_, h.alone, ?_⟩
    · refine List.forall_mem_cons.mpr ⟨fun q polls => ?_, h.fresh⟩
      cases polls
    · exact List.forall_mem_cons.mpr ⟨fun _ => rfl, h.empty⟩
  | @visit i walk there key reaches =>
    exact ((h.perm (walks_perm there)).visit key).perm (set_perm there _)
  | arrive there done =>
    obtain ⟨world, walks⟩ := arrive_perm there
    exact world ▸ (h.perm (walks_perm there)).arrive.perm walks

theorem Leads.orderly {t t' : Traffic} (leads : t.Leads t') (h : Orderly t.world t.walks) :
    Orderly t'.world t'.walks := by
  induction leads with
  | refl => exact h
  | tail _ step ih => exact step.orderly ih

theorem Reached.orderly {t : Traffic} (reached : t.Reached) : Orderly t.world t.walks := by
  obtain ⟨arity, blueprints, leads⟩ := reached
  have start := World.reached_initial arity blueprints
  exact leads.orderly ⟨start.recorded, start.balanced, start.placed, by simp, by simp, by simp⟩

theorem Reached.leads {t t' : Traffic} (reached : t.Reached) (leads : t.Leads t') :
    t'.Reached := by
  obtain ⟨arity, blueprints, before⟩ := reached
  exact ⟨arity, blueprints, before.trans leads⟩

theorem go_leads (t : Traffic) (stride : Stride) : t.Leads (t.go stride) := by
  cases stride with
  | act action =>
    exact .single (.progress (.change (.deed (.perform t.world action))) fun p _ =>
      congrArg (·[p]?) (World.passes_perform t.world action))
  | poll p =>
    unfold go
    dsimp only
    split
    · rename_i pass found
      split
      · rename_i free
        refine .single (.poll found free.1 ?_)
        rintro ⟨walk, member, polls⟩
        exact free.2 walk member polls
      · exact .refl
    · exact .refl
  | demand name =>
    unfold go
    dsimp only
    split
    · rename_i d found
      exact .single (.demand ⟨name, found⟩)
    · exact .refl
  | visit i key =>
    unfold go
    dsimp only
    split
    · rename_i walk there
      split
      · rename_i reaches
        exact .single (.visit there reaches)
      · exact .refl
    · exact .refl
  | arrive i =>
    unfold go
    dsimp only
    split
    · rename_i walk there
      split
      · rename_i done
        exact .single (.arrive there done)
      · exact .refl
    · exact .refl

theorem run_leads (t : Traffic) (strides : List Stride) : t.Leads (t.run strides) := by
  induction strides generalizing t with
  | nil => exact .refl
  | cons stride strides ih => exact (t.go_leads stride).trans (ih (t.go stride))

/-- Where nobody is on the way, all that a run does may happen. -/
theorem leads_of_leads {w w' : World} (leads : w.Leads w') : Traffic.Leads ⟨w, []⟩ ⟨w', []⟩ := by
  induction leads with
  | refl => exact .refl
  | tail _ progress ih =>
    refine ih.tail (.progress progress fun p opens => ?_)
    obtain ⟨walk, member, -⟩ := opens
    cases member

end Traffic
end Fanout
