import SchemaHerald.Publisher.Move

/-!
# What the small operations of a publisher leave alone

A task is read through `stage?` and `parent?`. Setting a stage changes `stage?` at one task and
nothing else; waking tasks, writing the journal and exchanging the registrar change neither. The
end of a task also reaches the task that it is a part of: `Finished` lists the ways in which it
can, and `finished_finish` says that there are no others.
-/
namespace SchemaHerald

/-- The batch `b'` is `b` after a permit came back: it goes to the first task that waits for one, or
is there for the next one to ask. -/
structure Batch.PermitBack (b b' : Batch) : Prop where
  registry : b'.registry = b.registry
  members : b'.members = b.members
  outcomes : b'.outcomes = b.outcomes
  abandoned : b'.abandoned = b.abandoned
  permit : (∃ next, b.queue = next :: b'.queue ∧ b'.permits = b.permits) ∨
    (b.queue = [] ∧ b'.queue = [] ∧ b'.permits = b.permits.map (· + 1))

namespace Publisher

variable {p : Publisher} {t u : Nat} {s s' : Stage} {o : Outcome}

/-- The task that a task is a part of. -/
def parent? (p : Publisher) (t : Nat) : Option Nat := p.tasks[t]?.bind (·.parent)

/-- A task is younger than the one that it is a part of. -/
def Rooted (p : Publisher) : Prop := ∀ t c, p.parent? t = some c → c < t

theorem Rooted.ne_self (h : p.Rooted) (t : Nat) : p.parent? t ≠ some t := fun he =>
  Nat.lt_irrefl t (h t t he)

theorem stage?_eq_some_iff :
    p.stage? t = some s ↔ ∃ parent, p.tasks[t]? = some ⟨s, parent⟩ := by
  unfold stage?
  cases h : p.tasks[t]? with
  | none => simp
  | some task =>
    obtain ⟨stage, parent⟩ := task
    simp [eq_comm]

theorem lt_length_of_stage? (h : p.stage? t = some s) : t < p.tasks.length := by
  obtain ⟨parent, ht⟩ := stage?_eq_some_iff.1 h
  exact (List.getElem?_eq_some_iff.1 ht).1

theorem exists_stage? (h : t < p.tasks.length) : ∃ s, p.stage? t = some s :=
  ⟨p.tasks[t].stage, by simp [stage?, h]⟩

theorem outcome?_eq_some_iff : p.outcome? t = some o ↔ p.stage? t = some (.ended o) := by
  unfold outcome?
  cases h : p.stage? t with
  | none => simp
  | some s => cases s <;> simp [Stage.outcome?]

/-! ## Fields that are left alone -/

section Frames
variable (p) (t : Nat) (s : Stage) (ts : List Nat) (entry : Entry) (r : Registrar)

@[simp] theorem registrar_setStage : (p.setStage t s).registrar = p.registrar := rfl
@[simp] theorem held_setStage : (p.setStage t s).held = p.held := rfl
@[simp] theorem limit_setStage : (p.setStage t s).limit = p.limit := rfl
@[simp] theorem listening_setStage : (p.setStage t s).listening = p.listening := rfl
@[simp] theorem ready_setStage : (p.setStage t s).ready = p.ready := rfl
@[simp] theorem journal_setStage : (p.setStage t s).journal = p.journal := rfl
@[simp] theorem withdrawn_setStage : (p.setStage t s).withdrawn = p.withdrawn := rfl

@[simp] theorem registrar_withRegistrar : (p.withRegistrar r).registrar = r := rfl
@[simp] theorem held_withRegistrar : (p.withRegistrar r).held = p.held := rfl
@[simp] theorem limit_withRegistrar : (p.withRegistrar r).limit = p.limit := rfl
@[simp] theorem listening_withRegistrar : (p.withRegistrar r).listening = p.listening := rfl
@[simp] theorem ready_withRegistrar : (p.withRegistrar r).ready = p.ready := rfl
@[simp] theorem journal_withRegistrar : (p.withRegistrar r).journal = p.journal := rfl
@[simp] theorem withdrawn_withRegistrar : (p.withRegistrar r).withdrawn = p.withdrawn := rfl
@[simp] theorem tasks_withRegistrar : (p.withRegistrar r).tasks = p.tasks := rfl

@[simp] theorem registrar_wake : (p.wake ts).registrar = p.registrar := rfl
@[simp] theorem held_wake : (p.wake ts).held = p.held := rfl
@[simp] theorem limit_wake : (p.wake ts).limit = p.limit := rfl
@[simp] theorem listening_wake : (p.wake ts).listening = p.listening := rfl
@[simp] theorem journal_wake : (p.wake ts).journal = p.journal := rfl
@[simp] theorem withdrawn_wake : (p.wake ts).withdrawn = p.withdrawn := rfl
@[simp] theorem tasks_wake : (p.wake ts).tasks = p.tasks := rfl

@[simp] theorem registrar_see : (p.see entry).registrar = p.registrar := rfl
@[simp] theorem held_see : (p.see entry).held = p.held := rfl
@[simp] theorem limit_see : (p.see entry).limit = p.limit := rfl
@[simp] theorem listening_see : (p.see entry).listening = p.listening := rfl
@[simp] theorem journal_see : (p.see entry).journal = entry :: p.journal := rfl
@[simp] theorem withdrawn_see : (p.see entry).withdrawn = p.withdrawn := rfl
@[simp] theorem tasks_see : (p.see entry).tasks = p.tasks := rfl

@[simp] theorem registrar_wakeIdle : p.wakeIdle.registrar = p.registrar := by
  unfold wakeIdle
  split <;> rfl

@[simp] theorem held_wakeIdle : p.wakeIdle.held = p.held := by
  unfold wakeIdle
  split <;> rfl

@[simp] theorem limit_wakeIdle : p.wakeIdle.limit = p.limit := by
  unfold wakeIdle
  split <;> rfl

@[simp] theorem listening_wakeIdle : p.wakeIdle.listening = p.listening := by
  unfold wakeIdle
  split <;> rfl

@[simp] theorem journal_wakeIdle : p.wakeIdle.journal = p.journal := by
  unfold wakeIdle
  split <;> rfl

@[simp] theorem withdrawn_wakeIdle : p.wakeIdle.withdrawn = p.withdrawn := by
  unfold wakeIdle
  split <;> rfl

@[simp] theorem tasks_wakeIdle : p.wakeIdle.tasks = p.tasks := by
  unfold wakeIdle
  split <;> rfl

variable (g : Registration)

@[simp] theorem registrar_withdraw : (p.withdraw g).registrar = p.registrar := by
  unfold withdraw
  split
  · rfl
  · dsimp only
    split <;> rfl

@[simp] theorem held_withdraw : (p.withdraw g).held = p.held := by
  unfold withdraw
  split
  · rfl
  · dsimp only
    split <;> rfl

@[simp] theorem ready_withdraw : (p.withdraw g).ready = p.ready := by
  unfold withdraw
  split
  · rfl
  · dsimp only
    split <;> rfl

@[simp] theorem limit_withdraw : (p.withdraw g).limit = p.limit := by
  unfold withdraw
  split
  · rfl
  · dsimp only
    split <;> rfl

@[simp] theorem listening_withdraw : (p.withdraw g).listening = p.listening := by
  unfold withdraw
  split
  · rfl
  · dsimp only
    split <;> rfl

@[simp] theorem tasks_withdraw : (p.withdraw g).tasks = p.tasks := by
  unfold withdraw
  split
  · rfl
  · dsimp only
    split <;> rfl

end Frames

/-! ## Stages and parents -/

/-- Stages are read off the tasks alone. -/
theorem stage?_congr {q : Publisher} (h : q.tasks = p.tasks) (t : Nat) :
    q.stage? t = p.stage? t := by
  unfold stage?
  rw [h]

theorem parent?_congr {q : Publisher} (h : q.tasks = p.tasks) (t : Nat) :
    q.parent? t = p.parent? t := by
  unfold parent?
  rw [h]

theorem stage?_setStage_self (h : p.stage? t = some s) :
    (p.setStage t s').stage? t = some s' := by
  obtain ⟨parent, ht⟩ := stage?_eq_some_iff.1 h
  simp [stage?, setStage, ht]

theorem stage?_setStage_of_ne (h : u ≠ t) : (p.setStage t s).stage? u = p.stage? u := by
  simp [stage?, setStage, List.getElem?_modify_ne _ _ (Ne.symm h)]

@[simp] theorem parent?_setStage (p : Publisher) (t : Nat) (s : Stage) (u : Nat) :
    (p.setStage t s).parent? u = p.parent? u := by
  simp only [parent?, setStage, List.getElem?_modify]
  cases h : p.tasks[u]? with
  | none => rfl
  | some task => by_cases ht : t = u <;> simp [ht]

@[simp] theorem length_tasks_setStage (p : Publisher) (t : Nat) (s : Stage) :
    (p.setStage t s).tasks.length = p.tasks.length := by
  simp [setStage]

theorem setStage_setStage (p : Publisher) (t : Nat) (s s' : Stage) :
    (p.setStage t s).setStage t s' = p.setStage t s' := by
  simp only [setStage, List.modify_modify_eq]
  rfl

/-- A new task stands after those that there were. -/
theorem stage?_append {q : Publisher} {ts : List Task} (h : q.tasks = p.tasks ++ ts) (u : Nat) :
    q.stage? u =
      if u < p.tasks.length then p.stage? u else ts[u - p.tasks.length]?.map (·.stage) := by
  unfold stage?
  rw [h, List.getElem?_append]
  split <;> rfl

theorem parent?_append {q : Publisher} {ts : List Task} (h : q.tasks = p.tasks ++ ts) (u : Nat) :
    q.parent? u =
      if u < p.tasks.length then p.parent? u else ts[u - p.tasks.length]?.bind (·.parent) := by
  unfold parent?
  rw [h, List.getElem?_append]
  split <;> rfl

theorem stage?_append_of_some {q : Publisher} {ts : List Task} (h : q.tasks = p.tasks ++ ts)
    (hs : p.stage? u = some s) : q.stage? u = some s := by
  rw [stage?_append h, if_pos (lt_length_of_stage? hs), hs]

/-! ## Tasks that are asked for -/

theorem tasks_ask (p : Publisher) (request : Request) :
    (p.ask request).tasks = p.tasks ++ [{ stage := .asked request }] := rfl

/-- The other tasks stay where they are. -/
theorem stage?_ask_of_some (request : Request) (hs : p.stage? u = some s) :
    (p.ask request).stage? u = some s :=
  stage?_append_of_some (tasks_ask p request) hs

/-- A task stood where it does before, or it is the one that is asked for now. -/
theorem task_of_ask {request : Request} (hs : (p.ask request).stage? u = some s) :
    p.stage? u = some s ∨ u = p.tasks.length ∧ s = .asked request := by
  rw [stage?_append (tasks_ask p request)] at hs
  split at hs
  · exact .inl hs
  · rename_i hge
    obtain ⟨task, htask, rfl⟩ := Option.map_eq_some_iff.1 hs
    obtain ⟨hlast, -⟩ := List.getElem?_eq_some_iff.1 htask
    rw [List.length_singleton] at hlast
    rw [List.mem_singleton.1 (List.mem_of_getElem? htask)]
    exact .inr ⟨by omega, rfl⟩

/-- What stands somewhere was there before, or it is what is asked for now. -/
theorem stage?_of_ask {request : Request} (hs : (p.ask request).stage? u = some s) :
    p.stage? u = some s ∨ s = .asked request :=
  (task_of_ask hs).imp_right And.right

/-- A task that is asked for is no part of another one. -/
theorem parent?_ask (p : Publisher) (request : Request) (u : Nat) :
    (p.ask request).parent? u = p.parent? u := by
  rw [parent?_append (tasks_ask p request)]
  split
  · rfl
  · rename_i hge
    have hold : p.tasks[u]? = none := List.getElem?_eq_none (Nat.not_lt.1 hge)
    rw [parent?, hold]
    cases htask : [({ stage := .asked request } : Task)][u - p.tasks.length]? with
    | none => rfl
    | some task =>
      rw [List.mem_singleton.1 (List.mem_of_getElem? htask)]
      rfl

/-! ## Ends of tasks -/

/-- A task that is a part of nothing just ends. -/
theorem finish_of_orphan (hparent : p.parent? t = none) (out : Outcome) :
    p.finish t out = p.setStage t (.ended out) := by
  unfold Publisher.finish
  rw [show p.tasks[t]?.bind (·.parent) = none from hparent]

section Ends
variable (p) (t : Nat) (o : Outcome)

@[simp] theorem held_finish : (p.finish t o).held = p.held := by
  unfold finish deliver releasePermit endDrain
  dsimp only
  repeat' split
  all_goals simp

@[simp] theorem limit_finish : (p.finish t o).limit = p.limit := by
  unfold finish deliver releasePermit endDrain
  dsimp only
  repeat' split
  all_goals simp

@[simp] theorem listening_finish : (p.finish t o).listening = p.listening := by
  unfold finish deliver releasePermit endDrain
  dsimp only
  repeat' split
  all_goals simp

@[simp] theorem journal_finish : (p.finish t o).journal = p.journal := by
  unfold finish deliver releasePermit endDrain
  dsimp only
  repeat' split
  all_goals simp

@[simp] theorem withdrawn_finish : (p.finish t o).withdrawn = p.withdrawn := by
  unfold finish deliver releasePermit endDrain
  dsimp only
  repeat' split
  all_goals simp

end Ends

/-- Only stages and turns differ between `p` and `q`. -/
structure OnlyStages (p q : Publisher) : Prop where
  parent : ∀ u, q.parent? u = p.parent? u
  length : q.tasks.length = p.tasks.length
  registrar : q.registrar = p.registrar
  held : q.held = p.held
  journal : q.journal = p.journal

theorem OnlyStages.setStage (p : Publisher) (t : Nat) (s : Stage) : OnlyStages p (p.setStage t s) :=
  ⟨parent?_setStage p t s, length_tasks_setStage p t s, rfl, rfl, rfl⟩

theorem OnlyStages.wake (p : Publisher) (ts : List Nat) : OnlyStages p (p.wake ts) :=
  ⟨fun _ => rfl, rfl, rfl, rfl, rfl⟩

theorem OnlyStages.trans {q r : Publisher} (h : OnlyStages p q) (h' : OnlyStages q r) :
    OnlyStages p r where
  parent u := (h'.parent u).trans (h.parent u)
  length := h'.length.trans h.length
  registrar := h'.registrar.trans h.registrar
  held := h'.held.trans h.held
  journal := h'.journal.trans h.journal

/-- A task stays where it stands, or it waited for a permit and is given one. -/
def Admits (p q : Publisher) (u : Nat) : Prop :=
  q.stage? u = p.stage? u ∨
    ∃ options definition, p.stage? u = some (.queued options definition) ∧
      q.stage? u = some (.permitted options definition)

/-- **The ways in which a task ends.** `p` is the publisher before and `q` the one after the end of
task `t` with outcome `o`. -/
inductive Finished (p : Publisher) (t : Nat) (o : Outcome) (q : Publisher) : Prop
  /-- Nobody who could be told is. -/
  | alone (hp : ∀ c, p.parent? t = some c →
        (∀ b, p.stage? c ≠ some (.gathering b)) ∧ ∀ d, p.stage? c ≠ some (.draining d))
      (hq : q = p.setStage t (.ended o))
  /-- Its batch is told. -/
  | noted (c : Nat) (b b' : Batch) (hp : p.parent? t = some c)
      (hb : p.stage? c = some (.gathering b))
      (hn : Batch.PermitBack { b with outcomes := b.outcomes ++ [(t, o)] } b')
      (hc : q.stage? c = some (.gathering b')) (ht : q.stage? t = some (.ended o))
      (hu : ∀ u, u ≠ t → u ≠ c → Admits p q u) (hq : OnlyStages p q)
  /-- Its teardown is told and goes on. -/
  | drained (c : Nat) (d : Drain) (hp : p.parent? t = some c)
      (hd : p.stage? c = some (.draining d)) (hopen : (d.note t o).isComplete = false)
      (hq : q = (p.setStage t (.ended o)).setStage c (.draining (d.note t o)))
  /-- Its teardown is told, and was waiting for nothing else: the registrar is released. -/
  | released (c : Nat) (d : Drain) (hp : p.parent? t = some c)
      (hd : p.stage? c = some (.draining d)) (hdone : (d.note t o).isComplete = true)
      (hq : q = ((p.setStage t (.ended o)).withRegistrar p.registrar.release).setStage c
        (.ended (d.note t o).outcome))

/-- However it ends, it has ended with that outcome. -/
theorem Finished.ended {q : Publisher} (h : Finished p t o q) (hself : p.parent? t ≠ some t)
    (ht : p.stage? t = some s) : q.stage? t = some (.ended o) := by
  have hne : ∀ c, p.parent? t = some c → t ≠ c := fun c hc he => hself (he ▸ hc)
  cases h with
  | alone hp hq => rw [hq, stage?_setStage_self ht]
  | noted c b b' hp hb hn hc ht' hu hq => exact ht'
  | drained c d hp hd hopen hq =>
    rw [hq, stage?_setStage_of_ne (hne c hp), stage?_setStage_self ht]
  | released c d hp hd hdone hq =>
    rw [hq, stage?_setStage_of_ne (hne c hp), stage?_congr (tasks_withRegistrar ..),
      stage?_setStage_self ht]

/-- A permit that comes back makes at most one task go on that waits for it. -/
theorem releasePermit_spec {c : Nat} (b : Batch) (hc : p.stage? c = some s) :
    ∃ b', Batch.PermitBack b b' ∧ (p.releasePermit c b).stage? c = some (.gathering b') ∧
      (∀ u, u ≠ c → Admits p (p.releasePermit c b) u) ∧ OnlyStages p (p.releasePermit c b) := by
  unfold releasePermit
  cases hq : b.queue with
  | nil =>
    exact ⟨{ b with permits := b.permits.map (· + 1), queue := [] },
      ⟨rfl, rfl, rfl, rfl, .inr ⟨hq, rfl, rfl⟩⟩, stage?_setStage_self hc,
      fun u hu => .inl (stage?_setStage_of_ne hu), OnlyStages.setStage ..⟩
  | cons next queue =>
    have hself : (p.setStage c (.gathering { b with queue })).stage? c =
        some (.gathering { b with queue }) := stage?_setStage_self hc
    refine ⟨{ b with queue }, ⟨rfl, rfl, rfl, rfl, .inl ⟨next, hq, rfl⟩⟩, ?_⟩
    dsimp only
    split
    · rename_i options definition hnext
      have hne : next ≠ c := fun he => by
        rw [he, hself] at hnext
        cases hnext
      refine ⟨?_, fun u hu => ?_,
        ((OnlyStages.setStage ..).trans (OnlyStages.setStage ..)).trans (OnlyStages.wake ..)⟩
      · rw [stage?_congr (tasks_wake ..), stage?_setStage_of_ne hne.symm, hself]
      · by_cases hun : u = next
        · subst hun
          refine .inr ⟨options, definition, ?_, ?_⟩
          · rw [← hnext, stage?_setStage_of_ne hne]
          · rw [stage?_congr (tasks_wake ..), stage?_setStage_self hnext]
        · refine .inl ?_
          rw [stage?_congr (tasks_wake ..), stage?_setStage_of_ne hun, stage?_setStage_of_ne hu]
    · exact ⟨hself, fun u hu => .inl (stage?_setStage_of_ne hu), OnlyStages.setStage ..⟩

/-- **How a task ends**, if it is not a part of itself. -/
theorem finished_finish (hself : p.parent? t ≠ some t) (ht : p.stage? t = some s) (o : Outcome) :
    Finished p t o (p.finish t o) := by
  unfold finish
  cases hp : p.tasks[t]?.bind (·.parent) with
  | none =>
    refine .alone (fun c hc => ?_) rfl
    rw [parent?, hp] at hc
    cases hc
  | some c =>
    have hne : c ≠ t := fun he => hself (by rw [parent?, hp, he])
    have hsame : (p.setStage t (.ended o)).stage? c = p.stage? c := stage?_setStage_of_ne hne
    have hended : (p.setStage t (.ended o)).stage? t = some (.ended o) := stage?_setStage_self ht
    dsimp only
    unfold deliver
    rw [hsame]
    split
    · rename_i b hb
      obtain ⟨b', hn, hc, hu, honly⟩ := releasePermit_spec (p := p.setStage t (.ended o))
        { b with outcomes := b.outcomes ++ [(t, o)] } (hsame.trans hb)
      refine .noted c b b' hp hb hn hc ?_ (fun u hut huc => ?_)
        (((OnlyStages.setStage ..).trans honly).trans (OnlyStages.wake ..))
      · rcases hu t hne.symm with h | ⟨options, definition, h, -⟩
        · exact h.trans hended
        · rw [hended] at h
          cases h
      · rcases hu u huc with h | ⟨options, definition, h, h'⟩
        · exact .inl (h.trans (stage?_setStage_of_ne hut))
        · exact .inr ⟨options, definition, (stage?_setStage_of_ne hut).symm.trans h, h'⟩
    · rename_i d hd
      unfold endDrain
      rw [stage?_setStage_self (hsame.trans hd)]
      dsimp only
      split
      · rename_i hdone
        refine .released c d hp hd hdone ?_
        exact setStage_setStage ((p.setStage t (.ended o)).withRegistrar p.registrar.release) c _ _
      · rename_i hopen
        exact .drained c d hp hd (Bool.eq_false_iff.2 hopen) rfl
    · rename_i h1 h2
      refine .alone (fun c' hc' => ?_) rfl
      have hcc : c = c' := Option.some.inj (hp.symm.trans hc')
      subst hcc
      exact ⟨fun b hb => h1 b hb, fun d hd => h2 d hd⟩

end Publisher
end SchemaHerald
