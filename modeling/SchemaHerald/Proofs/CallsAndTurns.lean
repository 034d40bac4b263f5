import SchemaHerald.Proofs.BatchProgress
import SchemaHerald.Session

/-!
# Turns and calls

Two things that whoever runs a publisher relies on. Only tasks have turns (`Manned`), so that there is
somebody to run as long as the list of turns is not empty. And every call is written down when it begins
(`Sound.calls_run`): whoever waits for an answer after a turn did so before, or the journal has a new
entry for it. So a registry that answers whatever is new in the journal leaves nobody waiting.
-/
namespace SchemaHerald.Publisher

open Relation

variable {p q : Publisher} {t u c : Nat} {s s' : Stage} {o : Outcome}

/-! ## Turns -/

/-- **Only tasks have turns.** -/
def Manned (p : Publisher) : Prop := ∀ t ∈ p.ready, t < p.tasks.length

theorem Manned.mono (h : p.Manned) (hready : ∀ t ∈ q.ready, t ∈ p.ready)
    (hlength : p.tasks.length ≤ q.tasks.length) : q.Manned :=
  fun t ht => Nat.lt_of_lt_of_le (h t (hready t ht)) hlength

theorem Manned.erase (h : p.Manned) (t : Nat) :
    ({ p with ready := p.ready.erase t } : Publisher).Manned :=
  h.mono (fun _ => List.mem_of_mem_erase) le_rfl

theorem Manned.setStage (h : p.Manned) (t : Nat) (s : Stage) : (p.setStage t s).Manned :=
  h.mono (fun _ => id) (length_tasks_setStage p t s).ge

theorem Manned.withRegistrar (h : p.Manned) (r : Registrar) : (p.withRegistrar r).Manned := h

theorem Manned.see (h : p.Manned) (entry : Entry) : (p.see entry).Manned := h

theorem Manned.wake {ts : List Nat} (h : p.Manned) (hts : ∀ t ∈ ts, t < p.tasks.length) :
    (p.wake ts).Manned := fun t ht => (mem_ready_wake.1 ht).elim (h t) (hts t)

theorem Manned.wakeIdle (h : p.Manned) : p.wakeIdle.Manned := by
  unfold Publisher.wakeIdle
  split
  · exact h.wake fun t ht => List.mem_range.1 (List.mem_filter.1 ht).1
  · exact h

theorem Manned.withdraw (h : p.Manned) (g : Registration) : (p.withdraw g).Manned := by
  unfold Publisher.withdraw
  split
  · exact h
  · dsimp only
    split <;> exact h

theorem Manned.releasePermit (h : p.Manned) (c : Nat) (b : Batch) :
    (p.releasePermit c b).Manned := by
  unfold Publisher.releasePermit
  split
  · rename_i next queue hq
    dsimp only
    split
    · rename_i hs
      refine ((h.setStage c _).setStage next _).wake fun t ht => ?_
      rw [List.mem_singleton.1 ht, length_tasks_setStage]
      exact lt_length_of_stage? hs
    · exact h.setStage c _
  · exact h.setStage c _

theorem Manned.endDrain (h : p.Manned) (c : Nat) : (p.endDrain c).Manned := by
  unfold Publisher.endDrain
  split
  · split
    · exact (h.withRegistrar _).setStage c _
    · exact h
  · exact h

/-- A permit that comes back changes no number of tasks. -/
theorem length_releasePermit (p : Publisher) (c : Nat) (b : Batch) :
    (p.releasePermit c b).tasks.length = p.tasks.length := by
  unfold Publisher.releasePermit
  split
  · dsimp only
    split <;> simp
  · simp

theorem Manned.deliver (h : p.Manned) (c t : Nat) (o : Outcome) : (p.deliver c t o).Manned := by
  unfold Publisher.deliver
  split
  · rename_i b hb
    refine (h.releasePermit c _).wake fun u hu => ?_
    rw [List.mem_singleton.1 hu, length_releasePermit]
    exact lt_length_of_stage? hb
  · exact (h.setStage c _).endDrain c
  · exact h

theorem Manned.finish (h : p.Manned) (t : Nat) (o : Outcome) : (p.finish t o).Manned := by
  unfold Publisher.finish
  split
  · exact (h.setStage t _).deliver _ t o
  · exact h.setStage t _

theorem Manned.gather (h : p.Manned) (t : Nat) (b : Batch) : (p.gather t b).Manned := by
  unfold Publisher.gather
  split
  · exact h.setStage t _
  · exact h

theorem Manned.beginPublish (h : p.Manned) (t : Nat) (o : RegistryOptions) (d : Definition) :
    (p.beginPublish t o d).Manned := by
  unfold Publisher.beginPublish
  split
  · exact h.finish t _
  · split
    · exact h.finish t _
    · split
      · exact h.finish t _
      · exact ((h.withRegistrar _).setStage t _).see _

theorem Manned.beginMember (h : p.Manned) (t c : Nat) (o : RegistryOptions) (d : Definition) :
    (p.beginMember t c o d).Manned := by
  unfold Publisher.beginMember
  split
  · split
    · exact (h.setStage c _).setStage t _
    · exact (h.setStage c _).beginPublish t o d
    · exact h.beginPublish t o d
  · exact h.beginPublish t o d

theorem Manned.beginBatch (h : p.Manned) (t : Nat) (o : RegistryOptions) (ds : List Definition) :
    (p.beginBatch t o ds).Manned := by
  unfold Publisher.beginBatch
  split
  · exact h.finish t _
  · split
    · exact h.finish t _
    · rename_i o' ho
      dsimp only
      split
      · exact h.finish t _
      · have hgrown : (p.withBatch t o' ds).tasks.length = p.tasks.length + ds.length := by
          simp [withBatch, memberTasks]
        have hmanned : (p.withBatch t o' ds).Manned := h.mono (fun _ => id) (by omega)
        refine hmanned.wake fun u hu => ?_
        have hlt := (List.mem_range'_1.1 hu).2
        omega

theorem Manned.beginDrain (h : p.Manned) (ht : t < p.tasks.length)
    (td : SchemaHerald.Teardown) : (p.beginDrain t td).Manned := by
  unfold Publisher.beginDrain
  cases td with
  | sweeping failing unregisters => exact (h.withRegistrar _).finish t _
  | unpublishing =>
    dsimp only
    split
    · exact (h.withRegistrar _).finish t _
    · have hturn : ({ p with ready := t :: p.ready } : Publisher).Manned :=
        List.forall_mem_cons.2 ⟨ht, h⟩
      exact hturn.setStage t _

theorem Manned.tearDown (h : p.Manned) (ht : t < p.tasks.length)
    (td : SchemaHerald.Teardown) : (p.tearDown t td).Manned := by
  unfold Publisher.tearDown
  split
  · exact h.beginDrain ht td
  · exact h.setStage t _

theorem Manned.drainNext (h : p.Manned) (ht : t < p.tasks.length) (d : Drain) :
    (p.drainNext t d).Manned := by
  unfold Publisher.drainNext
  split
  · exact h
  · rename_i g rest hrest
    refine Manned.setStage (p := { p with
      tasks := p.tasks ++ [{ stage := .unpublishing g, parent := some t }]
      ready := if rest.isEmpty then p.ready else t :: p.ready }) ?_ t _
    intro u hu
    have hold : u ∈ p.ready ∨ u = t := by
      dsimp only at hu
      split at hu
      · exact .inl hu
      · exact (List.mem_cons.1 hu).symm
    have hlt : u < p.tasks.length := hold.elim (h u) fun he => he ▸ ht
    simp only [List.length_append]
    omega

theorem Manned.begin (h : p.Manned) (ht : t < p.tasks.length) (parent : Option Nat)
    (request : Request) : (p.begin t parent request).Manned := by
  cases request with
  | publish o d =>
    cases parent with
    | none => exact h.beginPublish t o d
    | some c => exact h.beginMember t c o d
  | publishAll o ds => exact h.beginBatch t o ds
  | unpublish g | tryPublish handle d | tryUnpublish g => exact (h.setStage t _).see _
  | close td =>
    show (p.beginClose t td).Manned
    unfold beginClose
    split
    · exact h.finish t _
    · exact (h.withRegistrar p.registrar.close).tearDown ht td

/-- **The turn of a task** makes only tasks ready. -/
theorem Manned.run (h : p.Manned) (t : Nat) : (p.run t).Manned := by
  unfold Publisher.run
  split
  · rename_i hready
    have ht := h t (List.contains_iff_mem.1 hready)
    have herased := h.erase t
    dsimp only
    split
    · exact herased.begin ht _ _
    · exact herased.beginPublish t _ _
    · exact herased.gather t _
    · exact herased.tearDown ht _
    · exact herased.drainNext ht _
    · exact herased
  · exact h

/-- **An answer** makes only tasks ready. -/
theorem Manned.answerPublish (h : p.Manned) (t : Nat) (a : Answer) :
    (p.answerPublish t a).Manned := by
  unfold Publisher.answerPublish
  split
  · cases a with
    | record record =>
      dsimp only
      split
      · exact ((h.withRegistrar _).wakeIdle.see _).finish t _
      · exact (h.withRegistrar _).wakeIdle.finish t _
    | refused cause => exact (h.withRegistrar _).wakeIdle.finish t _
    | broken message => exact (h.withRegistrar _).wakeIdle.finish t _
  · cases a <;> exact h.finish t _
  · exact h

theorem Manned.answerUnpublish (h : p.Manned) (t : Nat) (a : Except Cause Unit) :
    (p.answerUnpublish t a).Manned := by
  unfold Publisher.answerUnpublish
  split
  · cases a with
    | ok u => exact ((h.withRegistrar _).withdraw _).finish t _
    | error cause => exact h.finish t _
  · cases a <;> exact h.finish t _
  · exact h

theorem Manned.ask (h : p.Manned) (request : Request) : (p.ask request).Manned := by
  have hlength : (p.ask request).tasks.length = p.tasks.length + 1 := by simp [tasks_ask]
  intro t ht
  rcases mem_ready_wake.1 ht with hold | hnew
  · have hlt := h t hold
    omega
  · rw [List.mem_singleton.1 hnew]
    omega

/-- **Every move** makes only tasks ready. -/
theorem Manned.move (h : p.Manned) (m : Move) : (p.move m).Manned := by
  cases m with
  | ask request => exact h.ask request
  | abandon t =>
    show (p.abandon t).Manned
    unfold Publisher.abandon
    split
    · exact h.setStage t _
    · exact h
  | run t => exact h.run t
  | answerPublish t a => exact h.answerPublish t a
  | answerUnpublish t a => exact h.answerUnpublish t a
  | reserve registry schema =>
    simp only [Publisher.move, Publisher.reserve]
    cases p.registrar.reserve registry schema <;> exact h
  | drop k =>
    simp only [Publisher.move, Publisher.drop]
    split
    · exact Manned.wakeIdle h
    · exact h
  | register k record handle =>
    simp only [Publisher.move]
    split
    · rename_i q hq
      simp only [Publisher.register] at hq
      split at hq
      · cases hq
        exact Manned.wakeIdle h
      · cases hq
    · exact h
  | unregister | newHandle | handleFor => exact h

theorem manned_fresh (id : String) (listening : Bool) (limit : Option Nat) :
    (fresh id listening limit).Manned := fun _ ht => absurd ht List.not_mem_nil

/-! ## Calls -/

/-- Who waits for an answer after a task was put at a stage without a call did so before. -/
theorem calling_setStage (hnot : ¬ s'.IsCalling) (hu : (p.setStage t s').stage? u = some s)
    (hcall : s.IsCalling) : p.stage? u = some s := by
  by_cases hut : u = t
  · subst hut
    have hlt := lt_length_of_stage? hu
    rw [length_tasks_setStage] at hlt
    obtain ⟨s₀, hs⟩ := exists_stage? hlt
    cases (stage?_setStage_self hs).symm.trans hu
    exact absurd hcall hnot
  · rwa [stage?_setStage_of_ne hut] at hu

/-- **The end of a task begins no call.** -/
theorem Sound.calling_finish (h : p.Sound) {p' : Publisher} (htasks : p'.tasks = p.tasks)
    (ht : p.stage? t = some s') (hu : (p'.finish t o).stage? u = some s) (hcall : s.IsCalling) :
    u ≠ t ∧ p.stage? u = some s := by
  have hended := h.ended_finish htasks ht o
  have hut : u ≠ t := by
    rintro rfl
    cases hended.symm.trans hu
    exact hcall
  refine ⟨hut, ?_⟩
  have hself : p'.parent? t ≠ some t := by
    rw [parent?_congr htasks]
    exact h.parents.ne_self t
  rw [← stage?_congr htasks]
  cases finished_finish hself ((stage?_congr htasks t).trans ht) o with
  | alone hp hq =>
    rw [hq] at hu
    exact calling_setStage id hu hcall
  | noted c b b' hp hb hn hc ht' hothers hq =>
    by_cases huc : u = c
    · rw [huc, hc] at hu
      cases hu
      exact hcall.elim
    · rcases hothers u hut huc with hsame | ⟨o', d, -, hpermitted⟩
      · exact hsame.symm.trans hu
      · cases hpermitted.symm.trans hu
        exact hcall.elim
  | drained c d hp hd hopen hq =>
    rw [hq] at hu
    exact calling_setStage id (calling_setStage id hu hcall) hcall
  | released c d hp hd hdone hq =>
    rw [hq] at hu
    have hu' := calling_setStage (p := (p'.setStage t (.ended o)).withRegistrar _) id hu hcall
    exact calling_setStage (p := p') id hu' hcall

/-- **After an answer** the task waits no more, and nobody else has begun a call. -/
theorem Sound.calling_reply (h : p.Sound) (hs : Reply t p q) (hu : q.stage? u = some s)
    (hcall : s.IsCalling) : u ≠ t ∧ p.stage? u = some s := by
  cases hs with
  | commit k handle d record ht => exact h.calling_finish (by simp) ht hu hcall
  | lose k handle d outcome ht ho => exact h.calling_finish (by simp) ht hu hcall
  | remove g ht => exact h.calling_finish (by simp) ht hu hcall
  | keep g cause ht => exact h.calling_finish rfl ht hu hcall
  | tried s₀ outcome ht hs₀ ho => exact h.calling_finish rfl ht hu hcall

/-- The entries that are new in the journal have the calls of all who wait for an answer and did not
before. -/
def WrittenDown (p q : Publisher) : Prop :=
  ∃ new : List Entry, q.journal = new ++ p.journal ∧
    ∀ u s, q.stage? u = some s → s.IsCalling →
      p.stage? u = some s ∨ u ∈ new.filterMap Entry.task?

theorem WrittenDown.of_same (hjournal : q.journal = p.journal)
    (h : ∀ u s, q.stage? u = some s → s.IsCalling → p.stage? u = some s) : WrittenDown p q :=
  ⟨[], hjournal, fun u s hu hcall => .inl (h u s hu hcall)⟩

/-- The call of one task. -/
theorem WrittenDown.of_call {entry : Entry} (hjournal : q.journal = entry :: p.journal)
    (htask : entry.task? = some c)
    (h : ∀ u s, q.stage? u = some s → s.IsCalling → p.stage? u = some s ∨ u = c) :
    WrittenDown p q := by
  refine ⟨[entry], hjournal, fun u s hu hcall => (h u s hu hcall).imp_right fun he => ?_⟩
  rw [he, List.filterMap_cons_some htask]
  exact List.mem_cons_self

theorem WrittenDown.trans {r : Publisher} (h : WrittenDown p q) (h' : WrittenDown q r) :
    WrittenDown p r := by
  obtain ⟨new, hjournal, hcalls⟩ := h
  obtain ⟨new', hjournal', hcalls'⟩ := h'
  refine ⟨new' ++ new, by rw [hjournal', hjournal, List.append_assoc], fun u s hu hcall => ?_⟩
  rw [List.filterMap_append, List.mem_append]
  rcases hcalls' u s hu hcall with hold | hnew
  · exact (hcalls u s hold hcall).imp_right .inr
  · exact .inr (.inl hnew)

/-- A task that stands somewhere after it was put at a stage, or another one. -/
theorem calling_setStage_or (hu : (p.setStage t s').stage? u = some s) :
    p.stage? u = some s ∨ u = t := by
  by_cases hut : u = t
  · exact .inr hut
  · exact .inl ((stage?_setStage_of_ne hut).symm.trans hu)

/-- **In a step** every call that begins is written down. -/
theorem Sound.calls_step (h : p.Sound) (hs : Step t p q) : WrittenDown p q := by
  cases hs with
  | turn ready => exact .of_same rfl fun u s hu _ => hu
  | giveUp b ht => exact .of_same rfl fun u s hu hcall => calling_setStage id hu hcall
  | queue o d c b ht hp hb h0 =>
    exact .of_same rfl fun u s hu hcall =>
      calling_setStage id (calling_setStage id hu hcall) hcall
  | grant o d c b n ht hp hb hn =>
    exact .of_same rfl fun u s hu hcall =>
      calling_setStage id (calling_setStage id hu hcall) hcall
  | permit o d ht hfree => exact .of_same rfl fun u s hu hcall => calling_setStage id hu hcall
  | refuse o d failure ht =>
    exact .of_same (by simp) fun u s hu hcall => (h.calling_finish rfl ht hu hcall).2
  | reserve o o' d k r ht ho hd hr =>
    exact .of_call rfl rfl fun u s hu _ => calling_setStage_or (p := p.withRegistrar _) hu
  | refuseBatch o ds outcome ht ho =>
    exact .of_same (by simp) fun u s hu hcall => (h.calling_finish rfl ht hu hcall).2
  | beginBatch o o' ds ht hne ho =>
    refine .of_same rfl fun u s hu hcall => ?_
    have hgrown : ({ p with tasks := p.tasks ++ memberTasks t o' ds } : Publisher).stage? u = some s :=
      calling_setStage id hu hcall
    rw [stage?_append (p := p) rfl] at hgrown
    split at hgrown
    · exact hgrown
    · obtain ⟨task, htask, rfl⟩ := Option.map_eq_some_iff.1 hgrown
      obtain ⟨d, -, rfl⟩ := List.mem_map.1 (List.mem_of_getElem? htask)
      exact hcall.elim
  | gather b ht hb ha => exact .of_same rfl fun u s hu hcall => calling_setStage id hu hcall
  | unpublish g ht | tryPublish handle d ht | tryUnpublish g ht =>
    exact .of_call rfl rfl fun u s hu _ => calling_setStage_or hu
  | closeAgain td ht hc =>
    exact .of_same (by simp) fun u s hu hcall => (h.calling_finish rfl ht hu hcall).2
  | close td ht hc =>
    exact .of_same rfl fun u s hu hcall =>
      calling_setStage (p := p.withRegistrar _) id hu hcall
  | release td outcome ht h0 ho =>
    exact .of_same (by simp) fun u s hu hcall =>
      (h.calling_finish (tasks_withRegistrar _ _) ht hu hcall).2
  | drain ht h0 hne =>
    exact .of_same rfl fun u s hu hcall =>
      calling_setStage (p := { p with ready := t :: p.ready }) id hu hcall
  | take d g rest ready ht hr =>
    refine .of_call rfl rfl fun u s hu hcall => ?_
    have hgrown : ({ p with
        tasks := p.tasks ++ [{ stage := .unpublishing g, parent := some t }] } : Publisher).stage? u =
          some s := calling_setStage id hu hcall
    have hlt := lt_length_of_stage? hgrown
    rw [stage?_append (p := p) rfl] at hgrown
    split at hgrown
    · exact .inl hgrown
    · simp only [List.length_append, List.length_singleton] at hlt
      exact .inr (by omega)

/-- **In the turn of a task** every call that begins is written down. -/
theorem Sound.calls_run (h : p.Sound) (t : Nat) : WrittenDown p (p.run t) := by
  have hsteps : ∀ q, ReflTransGen (Step t) p q → WrittenDown p q := by
    intro q hs
    induction hs with
    | refl => exact .of_same rfl fun _ _ hu _ => hu
    | tail hsteps hstep ih => exact ih.trans ((h.steps hsteps).calls_step hstep)
  exact hsteps _ (run_steps p t)

end SchemaHerald.Publisher
