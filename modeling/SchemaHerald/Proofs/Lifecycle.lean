import SchemaHerald.Proofs.Bookkeeping

/-!
# The life of a task

`Stage.Next` lists the stages that a task may come to from the one where it stands, and `Stage.Leads`
is any number of such changes. Whatever a publisher does, every task goes on along them
(`Sound.goes_move`). So a task keeps the schema that it was asked to publish and the registry that it
was asked to publish it to, and the outcome with which it ended.

Tasks that are new publish for a batch or unpublish for a teardown, unless a caller asks for them,
and nothing else gets new parts (`Grown.parent?_iff`).
-/
namespace SchemaHerald

/-- The registrations that a teardown is for, in order. -/
def Drain.snapshot (d : Drain) : List Registration := d.removals.map (·.registration) ++ d.rest

theorem Drain.map_removals_note {β : Type} (d : Drain) (t : Nat) (o : Outcome) (f : Removal → β)
    (hf : ∀ m o', f { m with outcome := o' } = f m) :
    (d.note t o).removals.map f = d.removals.map f := by
  simp only [note, List.map_map]
  refine List.map_congr_left fun m _ => ?_
  rw [Function.comp_apply]
  split
  · exact hf m (some o)
  · rfl

theorem Drain.snapshot_note (d : Drain) (t : Nat) (o : Outcome) :
    (d.note t o).snapshot = d.snapshot := by
  have hmap := d.map_removals_note t o (·.registration) fun _ _ => rfl
  rw [snapshot, hmap]
  rfl

/-- A removal has been noted just now or is one of before. -/
theorem Drain.mem_removals_note {d : Drain} {t : Nat} {o : Outcome} {m : Removal}
    (hm : m ∈ (d.note t o).removals) :
    ∃ m₀ ∈ d.removals, m₀.task = m.task ∧
      ((m.task = t ∧ m.outcome = some o) ∨ (m.task ≠ t ∧ m = m₀)) := by
  obtain ⟨m₀, hm₀, rfl⟩ := List.mem_map.1 hm
  refine ⟨m₀, hm₀, ?_⟩
  split
  · rename_i he
    exact ⟨rfl, .inl ⟨he, rfl⟩⟩
  · rename_i hne
    exact ⟨rfl, .inr ⟨hne, rfl⟩⟩

/-- The outcome of a teardown is no registration. -/
theorem Outcome.registration?_ofRemovals (n : Nat) (parts : List (Part Failure)) :
    (Outcome.ofRemovals n parts).registration? = none := by
  unfold Outcome.ofRemovals
  split <;> rfl

namespace Stage

/-- **The stage after a stage.** -/
inductive Next : Stage → Stage → Prop
  | queue (o : RegistryOptions) (d : Definition) : Next (.asked (.publish o d)) (.queued o d)
  | permit (o : RegistryOptions) (d : Definition) : Next (.asked (.publish o d)) (.permitted o d)
  | letIn (o : RegistryOptions) (d : Definition) : Next (.queued o d) (.permitted o d)
  | refuse (o : RegistryOptions) (d : Definition) (failure : Failure) :
      Next (.permitted o d) (.ended (.failed failure))
  | reserve (o : RegistryOptions) (d : Definition) (k : Key) (h : Handle) (d' : Definition)
      (hk : k = Key.canonical o.name d.schema.name) (hcanonical : k.IsCanonical)
      (hh : h.name = k.registry) (hd : d'.name = k.schema) :
      Next (.permitted o d) (.publishing k h d')
  | commit (k : Key) (h : Handle) (d : Definition) (g : Registration) (hs : g.schema = k.schema)
      (hh : g.handle = h) : Next (.publishing k h d) (.ended (.registered g))
  | lose (k : Key) (h : Handle) (d : Definition) (outcome : Outcome)
      (ho : (∃ failure, outcome = .failed failure) ∨ ∃ message, outcome = .broken message) :
      Next (.publishing k h d) (.ended outcome)
  | refuseBatch (o : RegistryOptions) (ds : List Definition) (outcome : Outcome)
      (ho : (∃ failure, outcome = .failed failure) ∨ ∃ message, outcome = .broken message) :
      Next (.asked (.publishAll o ds)) (.ended outcome)
  | beginBatch (o : RegistryOptions) (ds : List Definition) (b : Batch) :
      Next (.asked (.publishAll o ds)) (.gathering b)
  | batch (b b' : Batch) (hr : b'.registry = b.registry) (hm : b'.members = b.members) :
      Next (.gathering b) (.gathering b')
  | gather (b : Batch) (hb : b.isComplete = true) : Next (.gathering b) (.ended b.outcome)
  | unpublish (g : Registration) : Next (.asked (.unpublish g)) (.unpublishing g)
  | answered (g : Registration) (outcome : Outcome)
      (ho : outcome = .done ∨ ∃ failure, outcome = .failed failure) :
      Next (.unpublishing g) (.ended outcome)
  | tryPublish (h : Handle) (d : Definition) :
      Next (.asked (.tryPublish h d)) (.tryingPublish h d)
  | tryUnpublish (g : Registration) : Next (.asked (.tryUnpublish g)) (.tryingUnpublish g)
  | triedPublish (h : Handle) (d : Definition) (outcome : Outcome)
      (ho : outcome.registration? = none) : Next (.tryingPublish h d) (.ended outcome)
  | triedUnpublish (g : Registration) (outcome : Outcome) (ho : outcome.registration? = none) :
      Next (.tryingUnpublish g) (.ended outcome)
  | closeAgain (td : Teardown) : Next (.asked (.close td)) (.ended .done)
  | close (td : Teardown) : Next (.asked (.close td)) (.waiting td)
  | release (td : Teardown) (outcome : Outcome) (ho : outcome.registration? = none) :
      Next (.waiting td) (.ended outcome)
  | drain (gs : List Registration) : Next (.waiting .unpublishing) (.draining { rest := gs })
  | remove (d d' : Drain) (h : d'.snapshot = d.snapshot) : Next (.draining d) (.draining d')
  | drained (d d' : Drain) (h : d'.snapshot = d.snapshot) : Next (.draining d) (.ended d'.outcome)

/-- The stages that a task may come to sooner or later. -/
abbrev Leads : Stage → Stage → Prop := Relation.ReflTransGen Next

/-- **An outcome is final.** -/
theorem Leads.eq_of_ended {o : Outcome} {s : Stage} (h : Leads (.ended o) s) : s = .ended o := by
  induction h with
  | refl => rfl
  | tail _ hnext ih =>
    subst ih
    cases hnext

/-- The stages at which a new part of a task may stand. -/
def IsFresh : Stage → Prop
  | .asked (.publish ..) | .unpublishing _ => True
  | _ => False

/-- The stages from which a task may be moved on by the turn or the end of another one. -/
def IsTold : Stage → Prop
  | .gathering _ | .draining _ | .queued .. => True
  | _ => False

/-- The stages from which a task gets new parts. -/
def GetsParts : Stage → Prop
  | .asked (.publishAll ..) | .draining _ => True
  | _ => False

/-- The stages at which a task has no turns. -/
def IsStill : Stage → Prop
  | .publishing .. | .unpublishing _ | .tryingPublish .. | .tryingUnpublish _ | .ended _ => True
  | _ => False

end Stage

namespace Publisher

open Relation

variable {p q : Publisher} {t u : Nat} {s s₀ s' : Stage} {o : Outcome}

/-- The task `u` stays where it is or goes on to a next stage. -/
def Advances (p q : Publisher) (u : Nat) : Prop :=
  ∀ s, p.stage? u = some s → ∃ s', q.stage? u = some s' ∧ (s' = s ∨ s.Next s')

/-- The task `u` goes on along the stages that may follow. -/
def Goes (p q : Publisher) (u : Nat) : Prop :=
  ∀ s, p.stage? u = some s → ∃ s', q.stage? u = some s' ∧ s.Leads s'

theorem Advances.of_eq (h : q.stage? u = p.stage? u) : Advances p q u := fun s hs =>
  ⟨s, h.trans hs, .inl rfl⟩

theorem Advances.congr {p' q' : Publisher} (h : Advances p q u) (hp : p'.tasks = p.tasks)
    (hq : q'.tasks = q.tasks) : Advances p' q' u := by
  intro s hs
  rw [stage?_congr hp] at hs
  rw [stage?_congr hq]
  exact h s hs

theorem Advances.goes (h : Advances p q u) : Goes p q u := by
  intro s hs
  obtain ⟨s', hs', rfl | hn⟩ := h s hs
  · exact ⟨s', hs', .refl⟩
  · exact ⟨s', hs', .single hn⟩

theorem Goes.of_eq (h : q.stage? u = p.stage? u) : Goes p q u := fun s hs =>
  ⟨s, h.trans hs, .refl⟩

theorem Goes.trans {r : Publisher} (h : Goes p q u) (h' : Goes q r u) : Goes p r u := by
  intro s hs
  obtain ⟨s', hs', hl⟩ := h s hs
  obtain ⟨s'', hs'', hl'⟩ := h' s' hs'
  exact ⟨s'', hs'', hl.trans hl'⟩

theorem advances_setStage (ht : p.stage? t = some s) (hn : s.Next s') (u : Nat) :
    Advances p (p.setStage t s') u := by
  by_cases hut : u = t
  · subst hut
    intro s₁ hs
    rw [ht] at hs
    cases hs
    exact ⟨s', stage?_setStage_self ht, .inr hn⟩
  · exact .of_eq (stage?_setStage_of_ne hut)

/-- Two tasks go on. -/
theorem advances_setStage_setStage {c : Nat} {sc sc' : Stage} (hc : p.stage? c = some sc)
    (hcn : sc.Next sc') (ht : p.stage? t = some s) (hn : s.Next s') (hne : t ≠ c) (u : Nat) :
    Advances p ((p.setStage c sc').setStage t s') u := by
  have ht' : (p.setStage c sc').stage? t = some s := (stage?_setStage_of_ne hne).trans ht
  by_cases hut : u = t
  · subst hut
    intro s₁ hs
    exact advances_setStage ht' hn u s₁ ((stage?_setStage_of_ne hne).trans hs)
  · intro s₁ hs
    rw [stage?_setStage_of_ne hut]
    exact advances_setStage hc hcn u s₁ hs

theorem advances_append {ts : List Task} (h : q.tasks = p.tasks ++ ts) (u : Nat) :
    Advances p q u :=
  fun s hs => ⟨s, stage?_append_of_some h hs, .inl rfl⟩

/-- A task goes on, and there are new ones. -/
theorem advances_append_setStage {ts : List Task} (ht : p.stage? t = some s) (hn : s.Next s')
    (u : Nat) : Advances p (Publisher.setStage { p with tasks := p.tasks ++ ts } t s') u := by
  intro s₁ hs
  have happend : ({ p with tasks := p.tasks ++ ts } : Publisher).stage? t = some s :=
    stage?_append_of_some rfl ht
  exact advances_setStage happend hn u s₁ (stage?_append_of_some rfl hs)

/-- **The end of a task**: the task ends, its batch or teardown notes it, and another member may get
its permit. -/
theorem advances_finish (hself : p.parent? t ≠ some t) (ht : p.stage? t = some s)
    (hn : s.Next (.ended o)) (u : Nat) : Advances p (p.finish t o) u := by
  have hne : ∀ c, p.parent? t = some c → c ≠ t := fun c hc he => hself (he ▸ hc)
  cases finished_finish hself ht o with
  | alone hp hq =>
    rw [hq]
    exact advances_setStage ht hn u
  | noted c b b' hp hb hnoted hc hended hu hq =>
    by_cases hut : u = t
    · subst hut
      intro s₁ hs
      rw [ht] at hs
      cases hs
      exact ⟨_, hended, .inr hn⟩
    · by_cases huc : u = c
      · subst huc
        intro s₁ hs
        rw [hb] at hs
        cases hs
        exact ⟨_, hc, .inr (.batch b b' hnoted.registry hnoted.members)⟩
      · rcases hu u hut huc with he | ⟨o', d, he, he'⟩
        · exact .of_eq he
        · intro s₁ hs
          rw [he] at hs
          cases hs
          exact ⟨_, he', .inr (.letIn o' d)⟩
  | drained c d hp hd hopen hq =>
    rw [hq]
    exact advances_setStage_setStage ht hn hd (.remove d _ (d.snapshot_note t o)) (hne c hp) u
  | released c d hp hd hdone hq =>
    rw [hq]
    exact (advances_setStage_setStage ht hn hd (.drained d _ (d.snapshot_note t o)) (hne c hp)
      u).congr rfl rfl

/-- **In a step** every task stays or goes on. -/
theorem Sound.advances_step (h : p.Sound) (hs : Step t p q) (u : Nat) : Advances p q u := by
  have hself : p.parent? t ≠ some t := h.parents.ne_self t
  cases hs with
  | turn ready => exact .of_eq rfl
  | giveUp b ht => exact advances_setStage ht (.batch b { b with abandoned := true } rfl rfl) u
  | queue o d c b ht hp hb h0 =>
    have hne : t ≠ c := fun he => by rw [← he, ht] at hb; cases hb
    exact advances_setStage_setStage hb (.batch b { b with queue := b.queue ++ [t] } rfl rfl) ht
      (.queue o d) hne u
  | grant o d c b n ht hp hb hn =>
    have hne : t ≠ c := fun he => by rw [← he, ht] at hb; cases hb
    exact advances_setStage_setStage hb (.batch b { b with permits := some n } rfl rfl) ht
      (.permit o d) hne u
  | permit o d ht hfree => exact advances_setStage ht (.permit o d) u
  | refuse o d failure ht => exact advances_finish hself ht (.refuse o d failure) u
  | reserve o o' d k r ht ho hd hr =>
    -- the handle and the name are those that the agreement of registrar and tasks gives
    have hsound := (h.reserve ht ho hd hr).fits t _
      (stage?_setStage_self (p := p.withRegistrar (r.handleFor o').2) ht)
    have hname := (h.reserve ht ho hd hr).named _ _ hsound.2.2
    have hk : k = Key.canonical o.name d.schema.name := by
      rw [(Registrar.reserve_eq_ok_iff.1 hr).2.1, RegistryOptions.name_of_canonical? ho,
        Key.canonical_trim]
    exact advances_setStage (p := p.withRegistrar (r.handleFor o').2) ht
      (.reserve o d k _ _ hk hsound.1 hname hsound.2.1) u
  | refuseBatch o ds outcome ht ho => exact advances_finish hself ht (.refuseBatch o ds outcome ho) u
  | beginBatch o o' ds ht hne ho => exact advances_append_setStage ht (.beginBatch o ds _) u
  | gather b ht hb ha => exact advances_setStage ht (.gather b hb) u
  | unpublish g ht => exact advances_setStage ht (.unpublish g) u
  | tryPublish g d ht => exact advances_setStage ht (.tryPublish g d) u
  | tryUnpublish g ht => exact advances_setStage ht (.tryUnpublish g) u
  | closeAgain td ht hc => exact advances_finish hself ht (.closeAgain td) u
  | close td ht hc =>
    exact advances_setStage (p := p.withRegistrar p.registrar.close) ht (.close td) u
  | release td outcome ht h0 ho =>
    refine advances_finish (p := p.withRegistrar p.registrar.release) hself ht
      (.release td outcome ?_) u
    rcases ho with ⟨-, -, rfl⟩ | ⟨_, _, n, parts, -, rfl⟩
    · rfl
    · exact Outcome.registration?_ofRemovals n parts
  | drain ht h0 hne =>
    exact advances_setStage (p := { p with ready := t :: p.ready }) ht (.drain _) u
  | take d g rest ready ht hr =>
    refine advances_append_setStage ht (.remove d _ ?_) u
    simp [Drain.snapshot, hr]

/-- **In a reply** every task stays or goes on. -/
theorem Sound.advances_reply (h : p.Sound) (hs : Reply t p q) (u : Nat) : Advances p q u := by
  have hself : p.parent? t ≠ some t := h.parents.ne_self t
  have told : ∀ {p' : Publisher} {s : Stage} {o : Outcome}, p'.tasks = p.tasks →
      p.stage? t = some s → s.Next (.ended o) → Advances p (p'.finish t o) u := by
    intro p' s o htasks ht hn
    have hself' : p'.parent? t ≠ some t := by rwa [parent?_congr htasks]
    exact (advances_finish hself' ((stage?_congr htasks t).trans ht) hn u).congr htasks.symm rfl
  cases hs with
  | commit k g d record ht => exact told (by simp) ht (.commit k g d _ rfl rfl)
  | lose k g d outcome ht ho =>
    exact told (by simp) ht (.lose k g d outcome (ho.imp (fun ⟨_, he⟩ => ⟨_, he⟩) id))
  | remove g ht => exact told (by simp) ht (.answered g _ (.inl rfl))
  | keep g cause ht => exact told rfl ht (.answered g _ (.inr ⟨_, rfl⟩))
  | tried s outcome ht hs ho =>
    rcases hs with ⟨_, _, rfl⟩ | ⟨_, rfl⟩
    · exact told rfl ht (.triedPublish _ _ outcome ho)
    · exact told rfl ht (.triedUnpublish _ outcome ho)

/-- A task that is ended has ended, whatever else was done before without regard to tasks. -/
theorem Sound.ended_finish (h : p.Sound) {p' : Publisher} (htasks : p'.tasks = p.tasks)
    (ht : p.stage? t = some s) (o : Outcome) : (p'.finish t o).stage? t = some (.ended o) := by
  have hself : p'.parent? t ≠ some t := by
    rw [parent?_congr htasks]
    exact h.parents.ne_self t
  have ht' : p'.stage? t = some s := (stage?_congr htasks t).trans ht
  exact (finished_finish hself ht' o).ended hself ht'

/-- **In a move** every task goes on. -/
theorem Sound.goes_move (h : p.Sound) (m : Move) (u : Nat) : Goes p (p.move m) u := by
  have hboth : (p.move m).Sound ∧ Goes p (p.move m) u := by
    refine move_induction (P := fun q => q.Sound ∧ Goes p q u) m ?_ ?_ ?_ ?_ ⟨h, .of_eq rfl⟩
    · exact fun request _ =>
        ⟨h.ask request, (advances_append (tasks_ask p request) u).goes⟩
    · exact fun _ _ _ hs ⟨hq, hgoes⟩ => ⟨hq.step hs, hgoes.trans (hq.advances_step hs u).goes⟩
    · exact fun _ _ hs => ⟨h.reply hs, (h.advances_reply hs u).goes⟩
    · exact fun hm => ⟨h.direct hm, .of_eq (stage?_congr (tasks_of_isDirect p hm) u)⟩
  exact hboth.2

/-- **As long as a publisher moves** every task goes on. -/
theorem Sound.goes_moves (h : p.Sound) (ms : List Move) (u : Nat) : Goes p (p.moves ms) u := by
  induction ms generalizing p with
  | nil => exact .of_eq rfl
  | cons m ms ih => exact (h.goes_move m u).trans (ih (h.move m))

/-- What ended stays as it ended. -/
theorem Sound.outcome?_moves (h : p.Sound) (ms : List Move) (ho : p.outcome? t = some o) :
    (p.moves ms).outcome? t = some o := by
  rw [outcome?_eq_some_iff] at ho ⊢
  obtain ⟨s', hs', hl⟩ := h.goes_moves ms t _ ho
  rw [hs', hl.eq_of_ended]

/-! ## What a task leaves alone -/

/-- The task `u`, at the stage `s`, is told nothing by `t`: nobody tells it anything, or it is a
teardown and `t` is no part of it. -/
def Untold (p : Publisher) (t u : Nat) (s : Stage) : Prop :=
  ¬ s.IsTold ∨ (∃ d, s = .draining d) ∧ p.parent? t ≠ some u

/-- The end of a task is told to no one else who goes on by it. -/
theorem stage?_finish_of_ne (hself : p.parent? t ≠ some t) (ht : p.stage? t = some s₀)
    (hut : u ≠ t) (hu : p.stage? u = some s) (hs : Untold p t u s) :
    (p.finish t o).stage? u = some s := by
  have hne : ∀ {c s'}, p.stage? c = some s' → s'.IsTold →
      (p.parent? t = some c ∨ ∀ d, s' ≠ .draining d) → u ≠ c := by
    rintro c s' hc htold hwhy rfl
    rw [hu] at hc
    cases hc
    rcases hs with hnot | ⟨⟨d, rfl⟩, hp⟩
    · exact hnot htold
    · rcases hwhy with hp' | hd
      · exact hp hp'
      · exact hd d rfl
  cases finished_finish hself ht o with
  | alone hp hq => rw [hq, stage?_setStage_of_ne hut, hu]
  | noted c b b' hp hb hnoted hc hended hadmit hq =>
    rcases hadmit u hut (hne hb trivial (.inl hp)) with he | ⟨o', d, he, -⟩
    · rw [he, hu]
    · exact absurd rfl (hne he trivial (.inr (by simp)))
  | drained c d hp hd hopen hq =>
    rw [hq, stage?_setStage_of_ne (hne hd trivial (.inl hp)), stage?_setStage_of_ne hut, hu]
  | released c d hp hd hdone hq =>
    rw [hq, stage?_setStage_of_ne (hne hd trivial (.inl hp)), stage?_congr (tasks_withRegistrar ..),
      stage?_setStage_of_ne hut, hu]

/-- **In a step of another task** a task stays where it is, if it is told nothing. -/
theorem Sound.stage?_step_of_ne (h : p.Sound) (hs : Step t p q) (hut : u ≠ t)
    (hu : p.stage? u = some s) (hnot : Untold p t u s) : q.stage? u = some s := by
  have hself : p.parent? t ≠ some t := h.parents.ne_self t
  have hne : ∀ {c b}, p.stage? c = some (.gathering b) → u ≠ c := by
    rintro c b hc rfl
    rw [hu] at hc
    cases hc
    rcases hnot with hnot | ⟨⟨d, hd⟩, -⟩
    · exact hnot trivial
    · cases hd
  cases hs with
  | turn ready => exact hu
  | giveUp | permit | gather => rw [stage?_setStage_of_ne hut, hu]
  | queue o d c b ht hp hb h0 =>
    rw [stage?_setStage_of_ne hut, stage?_setStage_of_ne (hne hb), hu]
  | grant o d c b n ht hp hb hn =>
    rw [stage?_setStage_of_ne hut, stage?_setStage_of_ne (hne hb), hu]
  | refuse o d failure ht => exact stage?_finish_of_ne hself ht hut hu hnot
  | refuseBatch o ds outcome ht ho => exact stage?_finish_of_ne hself ht hut hu hnot
  | closeAgain td ht hc => exact stage?_finish_of_ne hself ht hut hu hnot
  | release td outcome ht h0 ho =>
    exact stage?_finish_of_ne (p := p.withRegistrar p.registrar.release) hself ht hut hu hnot
  | reserve o o' d k r ht ho hd hr =>
    exact (stage?_setStage_of_ne (p := p.withRegistrar (r.handleFor o').2) hut).trans hu
  | unpublish g ht => exact (stage?_setStage_of_ne (p := p) hut).trans hu
  | tryPublish g d ht => exact (stage?_setStage_of_ne (p := p) hut).trans hu
  | tryUnpublish g ht => exact (stage?_setStage_of_ne (p := p) hut).trans hu
  | close td ht hc =>
    exact (stage?_setStage_of_ne (p := p.withRegistrar p.registrar.close) hut).trans hu
  | drain ht h0 hne' =>
    exact (stage?_setStage_of_ne (p := { p with ready := t :: p.ready }) hut).trans hu
  | beginBatch o o' ds ht hne' ho =>
    exact (stage?_setStage_of_ne (p := { p with tasks := p.tasks ++ memberTasks t o' ds }) hut).trans
      (stage?_append_of_some rfl hu)
  | take d g rest ready ht hr =>
    have htasks : ({ p.withRemoval t d g rest with ready }.see
        (.unpublishCall p.tasks.length g)).tasks = (p.withRemoval t d g rest).tasks := rfl
    rw [stage?_congr htasks, withRemoval, stage?_setStage_of_ne hut]
    exact stage?_append_of_some rfl hu

/-- **In the reply to another task** a task stays where it is, if it is told nothing. -/
theorem Sound.stage?_reply_of_ne (h : p.Sound) (hs : Reply t p q) (hut : u ≠ t)
    (hu : p.stage? u = some s) (hnot : Untold p t u s) : q.stage? u = some s := by
  have told : ∀ {p' : Publisher} {s' : Stage} (o : Outcome), p'.tasks = p.tasks →
      p.stage? t = some s' → (p'.finish t o).stage? u = some s := by
    intro p' s' o htasks ht
    have hself : p'.parent? t ≠ some t := by
      rw [parent?_congr htasks]
      exact h.parents.ne_self _
    refine stage?_finish_of_ne hself ((stage?_congr htasks t).trans ht) hut
      ((stage?_congr htasks u).trans hu) ?_
    rwa [Untold, parent?_congr htasks]
  cases hs with
  | commit k g d record ht => exact told _ (by simp) ht
  | lose k g d outcome ht ho => exact told _ (by simp) ht
  | remove g ht => exact told _ (by simp) ht
  | keep g cause ht => exact told _ rfl ht
  | tried s outcome ht hs ho => exact told _ rfl ht

/-- A task that nobody tells anything and that waits for no answer stays where it is. -/
theorem Sound.stage?_reply (h : p.Sound) (hs : Reply t p q) (hu : p.stage? u = some s)
    (htold : ¬ s.IsTold) (hcall : ¬ s.IsCalling) : q.stage? u = some s :=
  h.stage?_reply_of_ne hs (hs.ne hu hcall) hu (.inl htold)

/-- **A task that waits for an answer** or has ended does nothing in its turns. -/
theorem Step.eq_of_still (hs : Step t p q) (ht : p.stage? t = some s) (hstill : s.IsStill) :
    ∃ ready, q = { p with ready } := by
  cases hs with
  | turn ready => exact ⟨ready, rfl⟩
  | giveUp _ ht' | queue _ _ _ _ ht' | grant _ _ _ _ _ ht' | permit _ _ ht' | refuse _ _ _ ht'
  | reserve _ _ _ _ _ ht' | refuseBatch _ _ _ ht' | beginBatch _ _ _ ht' | gather _ ht'
  | unpublish _ ht' | tryPublish _ _ ht' | tryUnpublish _ ht' | closeAgain _ ht' | close _ ht'
  | release _ _ ht' | drain ht' | take _ _ _ _ ht' =>
    -- every other step has its task at a stage that is not still
    obtain rfl := Option.some.inj (ht'.symm.trans ht)
    exact hstill.elim

/-- **In a step** a task stays where it is that waits for an answer or has ended. -/
theorem Sound.stage?_step_of_still (h : p.Sound) (hs : Step t p q) (hu : p.stage? u = some s)
    (hstill : s.IsStill) : q.stage? u = some s := by
  by_cases hut : u = t
  · subst hut
    obtain ⟨ready, rfl⟩ := hs.eq_of_still hu hstill
    exact hu
  · refine h.stage?_step_of_ne hs hut hu (.inl fun htold => ?_)
    cases s <;> first | exact hstill | exact htold

/-- **In a move that is not its turn** a task stays where it is, if nobody tells it anything and it
waits for no answer. -/
theorem Sound.stage?_move (h : p.Sound) (hu : p.stage? u = some s) (htold : ¬ s.IsTold)
    (hcall : ¬ s.IsCalling) (m : Move) :
    (p.move m).stage? u = some s ∨ (m = .run u ∧ u ∈ p.ready) := by
  have steps : ∀ {t q}, u ≠ t → ReflTransGen (Step t) p q → q.Sound ∧ q.stage? u = some s := by
    intro t q hut hs
    induction hs with
    | refl => exact ⟨h, hu⟩
    | tail _ hstep ih => exact ⟨ih.1.step hstep, ih.1.stage?_step_of_ne hstep hut ih.2 (.inl htold)⟩
  have reply : ∀ {t q}, q = p ∨ Reply t p q → q.stage? u = some s := by
    rintro t q (rfl | hs)
    · exact hu
    · exact h.stage?_reply hs hu htold hcall
  cases m with
  | ask request => exact .inl (stage?_ask_of_some request hu)
  | abandon t =>
    by_cases hut : u = t
    · subst hut
      refine .inl ?_
      rw [Publisher.move, abandon]
      split
      · rename_i b hb
        rw [hu] at hb
        cases hb
        exact absurd trivial htold
      · exact hu
    · exact .inl (steps hut (abandon_steps p t)).2
  | run t =>
    by_cases hut : u = t
    · subst hut
      by_cases hready : u ∈ p.ready
      · exact .inr ⟨rfl, hready⟩
      · refine .inl ?_
        rw [Publisher.move, run, if_neg (by simpa using hready), hu]
    · exact .inl (steps hut (run_steps p t)).2
  | answerPublish t answer => exact .inl (reply (answerPublish_reply p t answer))
  | answerUnpublish t answer => exact .inl (reply (answerUnpublish_reply p t answer))
  | reserve | drop | register | unregister | newHandle | handleFor =>
    exact .inl ((stage?_congr (tasks_of_isDirect p rfl) u).trans hu)

/-- A task that was asked for something **begins in a turn of its own**. -/
theorem Sound.first_turn (h : p.Sound) {request : Request}
    (hu : p.stage? u = some (.asked request)) {ms : List Move}
    (hbegun : (p.moves ms).stage? u ≠ some (.asked request)) :
    ∃ before after, ms = before ++ .run u :: after ∧ u ∈ (p.moves before).ready ∧
      (p.moves before).stage? u = some (.asked request) := by
  induction ms generalizing p with
  | nil => exact absurd hu hbegun
  | cons m ms ih =>
    rcases h.stage?_move hu id id m with hu' | ⟨rfl, hready⟩
    · obtain ⟨before, after, rfl, hrest⟩ := ih (h.move m) hu' hbegun
      exact ⟨m :: before, after, rfl, hrest⟩
    · exact ⟨[], ms, rfl, hready, hu⟩

/-! ## New tasks -/

/-- Only stages differ, and there are as many tasks. -/
def SameShape (p q : Publisher) : Prop :=
  q.tasks.length = p.tasks.length ∧ ∀ u, q.parent? u = p.parent? u

theorem SameShape.of_tasks (h : q.tasks = p.tasks) : SameShape p q :=
  ⟨by rw [h], parent?_congr h⟩

theorem SameShape.trans {r : Publisher} (h : SameShape p q) (h' : SameShape q r) : SameShape p r :=
  ⟨h'.1.trans h.1, fun u => (h'.2 u).trans (h.2 u)⟩

theorem sameShape_setStage (p : Publisher) (t : Nat) (s : Stage) : SameShape p (p.setStage t s) :=
  ⟨length_tasks_setStage p t s, parent?_setStage p t s⟩

theorem sameShape_finish (hself : p.parent? t ≠ some t) (ht : p.stage? t = some s) (o : Outcome) :
    SameShape p (p.finish t o) := by
  cases finished_finish hself ht o with
  | alone hp hq =>
    rw [hq]
    exact sameShape_setStage ..
  | noted c b b' hp hb hnoted hc hended hu hq => exact ⟨hq.length, hq.parent⟩
  | drained c d hp hd hopen hq =>
    rw [hq]
    exact (sameShape_setStage ..).trans (sameShape_setStage ..)
  | released c d hp hd hdone hq =>
    rw [hq]
    exact (sameShape_setStage p t _).trans (sameShape_setStage (Publisher.withRegistrar _ _) c _)

/-- **The new tasks of a step** are parts of the task whose step it is. -/
inductive Grown (t : Nat) (p q : Publisher) : Prop
  /-- There are none. -/
  | same (h : SameShape p q)
  /-- A batch or a teardown has new parts. -/
  | parts (ts : List Task) (s s' : Stage) (ht : p.stage? t = some s) (hs : s.GetsParts)
      (hq : q.tasks = (Publisher.setStage { p with tasks := p.tasks ++ ts } t s').tasks)
      (hts : ∀ task ∈ ts, task.parent = some t ∧ task.stage.IsFresh)

theorem Sound.grown_step (h : p.Sound) (hs : Step t p q) : Grown t p q := by
  have hself : p.parent? t ≠ some t := h.parents.ne_self t
  cases hs with
  | turn ready => exact .same (.of_tasks rfl)
  | giveUp | permit | gather => exact .same (sameShape_setStage ..)
  | queue | grant => exact .same ((sameShape_setStage ..).trans (sameShape_setStage ..))
  | refuse o d failure ht => exact .same (sameShape_finish hself ht _)
  | refuseBatch o ds outcome ht ho => exact .same (sameShape_finish hself ht _)
  | closeAgain td ht hc => exact .same (sameShape_finish hself ht _)
  | release td outcome ht h0 ho =>
    exact .same (sameShape_finish (p := p.withRegistrar p.registrar.release) hself ht _)
  | reserve o o' d k r ht ho hd hr =>
    exact .same (sameShape_setStage (p.withRegistrar (r.handleFor o').2) t _)
  | unpublish g ht => exact .same (sameShape_setStage p t (.unpublishing g))
  | tryPublish g d ht => exact .same (sameShape_setStage p t (.tryingPublish g d))
  | tryUnpublish g ht => exact .same (sameShape_setStage p t (.tryingUnpublish g))
  | close td ht hc => exact .same (sameShape_setStage (p.withRegistrar p.registrar.close) t _)
  | drain ht h0 hne => exact .same (sameShape_setStage { p with ready := t :: p.ready } t _)
  | beginBatch o o' ds ht hne ho =>
    refine .parts (memberTasks t o' ds) _ _ ht trivial rfl fun task htask => ?_
    obtain ⟨d, -, rfl⟩ := List.mem_map.1 htask
    exact ⟨rfl, trivial⟩
  | take d g rest ready ht hr =>
    refine .parts [{ stage := .unpublishing g, parent := some t }] _ _ ht trivial rfl ?_
    simp [Stage.IsFresh]

theorem Sound.sameShape_reply (h : p.Sound) (hs : Reply t p q) : SameShape p q := by
  have told : ∀ {p' : Publisher} {s : Stage} (o : Outcome), p'.tasks = p.tasks →
      p.stage? t = some s → SameShape p (p'.finish t o) := by
    intro p' s o htasks ht
    have hself : p'.parent? t ≠ some t := by
      rw [parent?_congr htasks]
      exact h.parents.ne_self _
    exact (SameShape.of_tasks htasks).trans
      (sameShape_finish hself ((stage?_congr htasks t).trans ht) o)
  cases hs with
  | commit k g d record ht => exact told _ (by simp) ht
  | lose k g d outcome ht ho => exact told _ (by simp) ht
  | remove g ht => exact told _ (by simp) ht
  | keep g cause ht => exact told _ rfl ht
  | tried s outcome ht hs ho => exact told _ rfl ht

/-- A task that was not there before is fresh. -/
theorem Grown.fresh (h : Grown t p q) (hp : p.stage? u = none) (hq : q.stage? u = some s) :
    s.IsFresh := by
  have hge : p.tasks.length ≤ u := by simpa [stage?] using hp
  cases h with
  | same h =>
    have hlt := lt_length_of_stage? hq
    rw [h.1] at hlt
    omega
  | parts ts s₀ s' ht hs htasks hts =>
    have hne : u ≠ t := by
      have := lt_length_of_stage? ht
      omega
    rw [stage?_congr htasks, stage?_setStage_of_ne hne, stage?_append (p := p) rfl,
      if_neg (Nat.not_lt.2 hge)] at hq
    obtain ⟨task, htask, rfl⟩ := Option.map_eq_some_iff.1 hq
    exact (hts task (List.mem_of_getElem? htask)).2

/-- New parts are parts of the task whose step it is. -/
theorem Grown.parent?_of_fresh (h : Grown t p q) (hp : p.stage? u = none) (hq : q.stage? u = some s) :
    q.parent? u = some t := by
  have hge : p.tasks.length ≤ u := by simpa [stage?] using hp
  cases h with
  | same h =>
    have hlt := lt_length_of_stage? hq
    rw [h.1] at hlt
    omega
  | parts ts s₀ s' ht hs htasks hts =>
    rw [stage?_congr htasks, stage?_setStage_of_ne, stage?_append (p := p) rfl,
      if_neg (Nat.not_lt.2 hge)] at hq
    · obtain ⟨task, htask, -⟩ := Option.map_eq_some_iff.1 hq
      rw [parent?_congr htasks, parent?_setStage, parent?_append (p := p) rfl,
        if_neg (Nat.not_lt.2 hge), htask]
      exact (hts task (List.mem_of_getElem? htask)).1
    · have hlt := lt_length_of_stage? ht
      omega

/-- A task that is asked for has not ended. -/
theorem ended_of_ask {request : Request} (hu : (p.ask request).stage? u = some (.ended o)) :
    p.stage? u = some (.ended o) := by
  rcases stage?_of_ask hu with hu | hasked
  · exact hu
  · cases hasked

/-- **Where a task comes from** that stands somewhere after a step. -/
theorem Sound.came_step (h : p.Sound) (hs : Step t p q) (hu : q.stage? u = some s') :
    p.stage? u = some s' ∨ (∃ s, p.stage? u = some s ∧ s.Next s') ∨
      (p.stage? u = none ∧ s'.IsFresh) := by
  cases hp : p.stage? u with
  | none => exact .inr (.inr ⟨rfl, (h.grown_step hs).fresh hp hu⟩)
  | some s =>
    obtain ⟨s₁, hs₁, hcases⟩ := h.advances_step hs u s hp
    rw [hu] at hs₁
    cases hs₁
    rcases hcases with rfl | hn
    · exact .inl rfl
    · exact .inr (.inl ⟨s, rfl, hn⟩)

/-- **Where a task comes from** that stands somewhere after a reply. -/
theorem Sound.came_reply (h : p.Sound) (hs : Reply t p q) (hu : q.stage? u = some s') :
    p.stage? u = some s' ∨ ∃ s, p.stage? u = some s ∧ s.Next s' := by
  have hlt := lt_length_of_stage? hu
  rw [(h.sameShape_reply hs).1] at hlt
  obtain ⟨s₀, hp⟩ := exists_stage? hlt
  obtain ⟨s₁, hs₁, hcases⟩ := h.advances_reply hs u _ hp
  rw [hu] at hs₁
  cases hs₁
  rcases hcases with he | hn
  · exact .inl (he ▸ hp)
  · exact .inr ⟨_, hp, hn⟩

/-- A task stays a part of what it is a part of. -/
theorem Grown.parent?_of_lt (h : Grown t p q) (hu : u < p.tasks.length) :
    q.parent? u = p.parent? u := by
  cases h with
  | same h => exact h.2 u
  | parts ts s s' ht hs htasks hts =>
    rw [parent?_congr htasks, parent?_setStage, parent?_append (p := p) rfl, if_pos hu]

/-- A task keeps its parts, and gets no new ones at most stages. -/
theorem Grown.parent?_iff {c : Nat} (h : Grown t p q) (hc : p.stage? c = some s)
    (hs : ¬ s.GetsParts) : q.parent? u = some c ↔ p.parent? u = some c := by
  cases h with
  | same h => rw [h.2]
  | parts ts s₀ s' ht hs₀ htasks hts =>
    rw [parent?_congr htasks, parent?_setStage, parent?_append (p := p) rfl]
    split
    · rfl
    · rename_i hge
      have hnone : p.parent? u = none := by
        rw [parent?, List.getElem?_eq_none (Nat.not_lt.1 hge), Option.bind_none]
      rw [hnone]
      refine iff_of_false (fun hu => ?_) (by simp)
      obtain ⟨task, htask, hparent⟩ := Option.bind_eq_some_iff.1 hu
      rw [(hts task (List.mem_of_getElem? htask)).1] at hparent
      rw [Option.some.inj hparent, hc] at ht
      exact hs (Option.some.inj ht ▸ hs₀)

end Publisher
end SchemaHerald
