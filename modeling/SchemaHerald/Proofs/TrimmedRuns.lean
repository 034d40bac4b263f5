import SchemaHerald.Proofs.TaskFrames
import SchemaHerald.Proofs.TrimmedNames

/-!
# Taking blanks away from a publisher

`trimmed` takes the blanks away from around every name that a publisher still has as it was given: in
what it was asked for, in the schemas that wait for a permit, and in those that the registry was called
for. Everything else, the registrar above all, has such names without blanks already.

A publisher does the same whether the blanks are taken away before or after it (`trimmed_move`), because
wherever it looks at a name it takes the blanks away itself. There is one lemma for each operation.
-/
namespace SchemaHerald

/-! ## Taking blanks away -/

/-- The options with the blanks around the name removed. -/
def RegistryOptions.trimmed (o : RegistryOptions) : RegistryOptions :=
  { o with name := Text.trim o.name }

/-- The definition with the blanks around the schema's name removed. -/
def Definition.trimmed (d : Definition) : Definition :=
  { d with schema := { d.schema with name := d.name } }

/-- The request with the blanks removed from around the names in it. -/
def Request.trimmed : Request → Request
  | .publish o d => .publish o.trimmed d.trimmed
  | .publishAll o ds => .publishAll o.trimmed (ds.map Definition.trimmed)
  | .unpublish g => .unpublish g
  | .close teardown => .close teardown
  | .tryPublish handle d => .tryPublish handle d.trimmed
  | .tryUnpublish g => .tryUnpublish g

/-- The stage with the blanks removed from around the names that are still as they were given. -/
def Stage.trimmed : Stage → Stage
  | .asked request => .asked request.trimmed
  | .queued o d => .queued o.trimmed d.trimmed
  | .permitted o d => .permitted o.trimmed d.trimmed
  | .publishing key handle d => .publishing key handle d.trimmed
  | .unpublishing g => .unpublishing g
  | .tryingPublish handle d => .tryingPublish handle d.trimmed
  | .tryingUnpublish g => .tryingUnpublish g
  | .gathering batch => .gathering batch
  | .waiting teardown => .waiting teardown
  | .draining drain => .draining drain
  | .ended outcome => .ended outcome

/-- The task at its trimmed stage. -/
def Task.trimmed (t : Task) : Task := { t with stage := t.stage.trimmed }

/-- The entry with the blanks removed from around the name of the schema that is published. -/
def Entry.trimmed : Entry → Entry
  | .publishCall task handle d => .publishCall task handle d.trimmed
  | .unpublishCall task g => .unpublishCall task g
  | .published g => .published g
  | .unpublished g => .unpublished g

/-- The move with the blanks removed from around the names that it brings. -/
def Move.trimmed : Move → Move
  | .ask request => .ask request.trimmed
  | .reserve registry schema => .reserve (Text.trim registry) (Text.trim schema)
  | m => m

/-- **The trimmed publisher**: tasks and journal with the blanks removed. -/
def Publisher.trimmed (p : Publisher) : Publisher :=
  { p with tasks := p.tasks.map Task.trimmed, journal := p.journal.map Entry.trimmed }

/-! ## Names that are looked at -/

theorem RegistryOptions.canonical?_trimmed (o : RegistryOptions) :
    o.trimmed.canonical? = o.canonical? := by
  simp [RegistryOptions.canonical?, RegistryOptions.trimmed]

/-- Options that were accepted have no blanks around the name. -/
theorem RegistryOptions.trimmed_of_canonical? {o o' : RegistryOptions}
    (h : o.canonical? = .ok o') : o'.trimmed = o' := by
  obtain ⟨-, rfl⟩ := canonical?_eq_ok_iff.1 h
  simp [RegistryOptions.trimmed]

@[simp] theorem Definition.name_trimmed (d : Definition) : d.trimmed.name = d.name :=
  d.trim_name

@[simp] theorem Definition.document_trimmed (d : Definition) :
    d.trimmed.schema.document = d.schema.document := rfl

@[simp] theorem Definition.metadata_trimmed (d : Definition) : d.trimmed.metadata = d.metadata :=
  rfl

theorem Definition.trimmed_stamp (d : Definition) (publisher : String) :
    (d.stamp publisher).trimmed = d.trimmed.stamp publisher := rfl

theorem Key.canonical_trim_trim (registry schema : String) :
    Key.canonical (Text.trim registry) (Text.trim schema) = Key.canonical registry schema := by
  simp [Key.canonical]

theorem Registrar.reserve_trim (r : Registrar) (registry schema : String) :
    r.reserve (Text.trim registry) (Text.trim schema) = r.reserve registry schema := by
  unfold Registrar.reserve
  rw [Key.canonical_trim_trim]

theorem Stage.outcome?_trimmed (s : Stage) : s.trimmed.outcome? = s.outcome? := by
  cases s <;> rfl

theorem Stage.isWaiting_trimmed (s : Stage) : s.trimmed.isWaiting = s.isWaiting := by
  cases s <;> rfl

namespace Publisher

variable (p : Publisher) (t : Nat)

/-! ## Tasks and readiness -/

@[simp] theorem registrar_trimmed : p.trimmed.registrar = p.registrar := rfl
@[simp] theorem listening_trimmed : p.trimmed.listening = p.listening := rfl
@[simp] theorem limit_trimmed : p.trimmed.limit = p.limit := rfl
@[simp] theorem ready_trimmed : p.trimmed.ready = p.ready := rfl
@[simp] theorem held_trimmed : p.trimmed.held = p.held := rfl
@[simp] theorem withdrawn_trimmed : p.trimmed.withdrawn = p.withdrawn := rfl

@[simp] theorem length_tasks_trimmed : p.trimmed.tasks.length = p.tasks.length := by
  simp [trimmed]

@[simp] theorem getElem?_tasks_trimmed : p.trimmed.tasks[t]? = p.tasks[t]?.map Task.trimmed := by
  simp [trimmed]

@[simp] theorem stage?_trimmed : p.trimmed.stage? t = (p.stage? t).map Stage.trimmed := by
  unfold stage?
  rw [getElem?_tasks_trimmed, Option.map_map, Option.map_map]
  rfl

@[simp] theorem parent?_trimmed : p.trimmed.parent? t = p.parent? t := by
  unfold parent?
  rw [getElem?_tasks_trimmed, Option.bind_map]
  rfl

@[simp] theorem outcome?_trimmed : p.trimmed.outcome? t = p.outcome? t := by
  unfold outcome?
  rw [stage?_trimmed, Option.bind_map]
  exact Option.bind_congr fun s _ => s.outcome?_trimmed

theorem trimmed_setStage (s : Stage) :
    (p.setStage t s).trimmed = p.trimmed.setStage t s.trimmed := by
  have htasks : (p.tasks.modify t fun u => { u with stage := s }).map Task.trimmed =
      (p.tasks.map Task.trimmed).modify t fun u => { u with stage := s.trimmed } := by
    refine List.ext_getElem? fun i => ?_
    simp only [List.getElem?_map, List.getElem?_modify, Option.map_eq_map, Option.map_map]
    refine Option.map_congr fun u _ => ?_
    by_cases hi : t = i
    · simp [hi, Task.trimmed]
    · simp [hi]
  simp [setStage, trimmed, htasks]

theorem trimmed_withRegistrar (r : Registrar) :
    (p.withRegistrar r).trimmed = p.trimmed.withRegistrar r := rfl

theorem trimmed_wake (ts : List Nat) : (p.wake ts).trimmed = p.trimmed.wake ts := rfl

theorem trimmed_see (entry : Entry) : (p.see entry).trimmed = p.trimmed.see entry.trimmed := rfl

theorem waiters_trimmed : p.trimmed.waiters = p.waiters := by
  unfold waiters
  rw [length_tasks_trimmed]
  refine List.filter_congr fun u _ => ?_
  rw [stage?_trimmed, Option.any_map]
  exact congrArg (Option.any · _) (funext Stage.isWaiting_trimmed)

theorem trimmed_wakeIdle : p.wakeIdle.trimmed = p.trimmed.wakeIdle := by
  unfold wakeIdle
  rw [waiters_trimmed, registrar_trimmed]
  split
  · exact p.trimmed_wake _
  · rfl

/-! ## Ends of tasks -/

theorem trimmed_gather (batch : Batch) : (p.gather t batch).trimmed = p.trimmed.gather t batch := by
  unfold gather
  split
  · exact p.trimmed_setStage t _
  · rfl

theorem trimmed_releasePermit (batch : Batch) :
    (p.releasePermit t batch).trimmed = p.trimmed.releasePermit t batch := by
  unfold releasePermit
  cases batch.queue with
  | nil => exact p.trimmed_setStage t _
  | cons next queue =>
    have hset : (p.setStage t (.gathering { batch with queue })).trimmed =
        p.trimmed.setStage t (.gathering { batch with queue }) := p.trimmed_setStage t _
    simp only
    rw [← hset]
    generalize p.setStage t (.gathering { batch with queue }) = q
    rw [stage?_trimmed]
    rcases q.stage? next with _ | s
    · rfl
    · cases s with
      | queued o d => simp only [Option.map_some, Stage.trimmed, trimmed_wake, trimmed_setStage]
      | _ => rfl

theorem trimmed_endDrain : (p.endDrain t).trimmed = p.trimmed.endDrain t := by
  unfold endDrain
  rw [stage?_trimmed]
  rcases p.stage? t with _ | s
  · rfl
  · cases s with
    | draining drain =>
      simp only [Option.map_some, Stage.trimmed]
      split
      · rw [trimmed_setStage]
        rfl
      · rfl
    | _ => rfl

theorem trimmed_deliver (u : Nat) (o : Outcome) :
    (p.deliver t u o).trimmed = p.trimmed.deliver t u o := by
  unfold deliver
  rw [stage?_trimmed]
  rcases p.stage? t with _ | s
  · rfl
  · cases s with
    | gathering batch =>
      simp only [Option.map_some, Stage.trimmed, trimmed_wake, trimmed_releasePermit]
    | draining drain =>
      simp only [Option.map_some, Stage.trimmed, trimmed_endDrain, trimmed_setStage]
    | _ => rfl

theorem trimmed_finish (o : Outcome) : (p.finish t o).trimmed = p.trimmed.finish t o := by
  have hparent : p.trimmed.tasks[t]?.bind (·.parent) = p.tasks[t]?.bind (·.parent) :=
    p.parent?_trimmed t
  unfold finish
  rw [hparent]
  rcases p.tasks[t]?.bind (·.parent) with _ | parent
  · exact p.trimmed_setStage t _
  · simp only [trimmed_deliver, trimmed_setStage, Stage.trimmed]

/-! ## Publishing -/

theorem trimmed_beginPublish (o : RegistryOptions) (d : Definition) :
    (p.beginPublish t o d).trimmed = p.trimmed.beginPublish t o.trimmed d.trimmed := by
  unfold beginPublish
  rw [RegistryOptions.canonical?_trimmed, Definition.name_trimmed, registrar_trimmed]
  rcases o.canonical? with failure | o'
  · exact p.trimmed_finish t _
  · by_cases hname : d.name.isEmpty
    · simp only [hname, if_true, trimmed_finish]
    · simp only [hname, Bool.false_eq_true, if_false]
      rcases p.registrar.reserve o'.name d.name with failure | ⟨key, registrar⟩
      · exact p.trimmed_finish t _
      · simp only [trimmed_see, trimmed_setStage, trimmed_withRegistrar, Stage.trimmed,
          Entry.trimmed, Definition.trimmed_stamp]

theorem trimmed_beginMember (parent : Nat) (o : RegistryOptions) (d : Definition) :
    (p.beginMember t parent o d).trimmed = p.trimmed.beginMember t parent o.trimmed d.trimmed := by
  unfold beginMember
  rw [stage?_trimmed]
  rcases p.stage? parent with _ | s
  · exact p.trimmed_beginPublish t o d
  · cases s with
    | gathering batch =>
      simp only [Option.map_some, Stage.trimmed]
      rcases batch.permits with _ | _ | n
      · exact p.trimmed_beginPublish t o d
      · simp only [trimmed_setStage, Stage.trimmed]
      · simp only [trimmed_beginPublish, trimmed_setStage, Stage.trimmed]
    | _ => exact p.trimmed_beginPublish t o d

theorem trimmed_beginBatch (o : RegistryOptions) (ds : List Definition) :
    (p.beginBatch t o ds).trimmed =
      p.trimmed.beginBatch t o.trimmed (ds.map Definition.trimmed) := by
  unfold beginBatch
  rw [RegistryOptions.canonical?_trimmed, List.isEmpty_map, limit_trimmed, length_tasks_trimmed,
    List.length_map]
  by_cases hempty : ds.isEmpty
  · simp only [hempty, if_true, trimmed_finish]
  · simp only [hempty, Bool.false_eq_true, if_false]
    rcases ho : o.canonical? with failure | o'
    · exact p.trimmed_finish t _
    · simp only
      split
      · exact p.trimmed_finish t _
      · have hnames : (ds.map Definition.trimmed).map (·.name) = ds.map (·.name) := by
          simp
        have htrimmed := RegistryOptions.trimmed_of_canonical? ho
        simp only [trimmed_wake, trimmed_setStage, Stage.trimmed, hnames]
        simp [trimmed, Task.trimmed, Stage.trimmed, Request.trimmed, htrimmed, Function.comp_def]

theorem trimmed_answerPublish (answer : Answer) :
    (p.answerPublish t answer).trimmed = p.trimmed.answerPublish t answer := by
  unfold answerPublish
  rw [stage?_trimmed]
  rcases p.stage? t with _ | s
  · rfl
  · cases s with
    | publishing key handle d =>
      simp only [Option.map_some, Stage.trimmed]
      cases answer with
      | record record =>
        simp only [registrar_trimmed, listening_trimmed, trimmed_finish, ← trimmed_withRegistrar,
          ← trimmed_wakeIdle]
        split
        · rfl
        · rfl
      | refused cause =>
        simp only [registrar_trimmed, trimmed_finish, trimmed_wakeIdle, trimmed_withRegistrar]
      | broken message =>
        simp only [registrar_trimmed, trimmed_finish, trimmed_wakeIdle, trimmed_withRegistrar]
    | tryingPublish handle d =>
      cases answer <;> exact p.trimmed_finish t _
    | _ => rfl

/-! ## Unpublishing -/

theorem trimmed_beginUnpublish (g : Registration) :
    (p.beginUnpublish t g).trimmed = p.trimmed.beginUnpublish t g := by
  unfold beginUnpublish
  rw [trimmed_see, trimmed_setStage]
  rfl

theorem trimmed_withdraw (g : Registration) : (p.withdraw g).trimmed = p.trimmed.withdraw g := by
  unfold withdraw
  rw [withdrawn_trimmed]
  split
  · rfl
  · simp only
    split
    · rfl
    · rfl

theorem trimmed_answerUnpublish (answer : Except Cause Unit) :
    (p.answerUnpublish t answer).trimmed = p.trimmed.answerUnpublish t answer := by
  unfold answerUnpublish
  rw [stage?_trimmed]
  rcases p.stage? t with _ | s
  · rfl
  · cases s with
    | unpublishing g =>
      simp only [Option.map_some, Stage.trimmed]
      rcases answer with cause | ⟨⟩
      · exact p.trimmed_finish t _
      · simp only [registrar_trimmed, trimmed_finish, trimmed_withdraw, trimmed_withRegistrar]
    | tryingUnpublish g =>
      rcases answer with cause | ⟨⟩ <;> exact p.trimmed_finish t _
    | _ => rfl

/-! ## Closing -/

theorem trimmed_beginDrain (teardown : Teardown) :
    (p.beginDrain t teardown).trimmed = p.trimmed.beginDrain t teardown := by
  unfold beginDrain
  cases teardown with
  | sweeping failing unregisters =>
    simp only [trimmed_finish, trimmed_withRegistrar]
    rfl
  | unpublishing =>
    by_cases hempty : p.registrar.registrations.isEmpty
    · simp only [registrar_trimmed, hempty, if_true, trimmed_finish, trimmed_withRegistrar]
    · simp only [registrar_trimmed, hempty, Bool.false_eq_true, if_false, trimmed_setStage]
      rfl

theorem trimmed_tearDown (teardown : Teardown) :
    (p.tearDown t teardown).trimmed = p.trimmed.tearDown t teardown := by
  unfold tearDown
  rw [registrar_trimmed]
  split
  · exact p.trimmed_beginDrain t teardown
  · exact p.trimmed_setStage t _

theorem trimmed_beginClose (teardown : Teardown) :
    (p.beginClose t teardown).trimmed = p.trimmed.beginClose t teardown := by
  unfold beginClose
  rw [registrar_trimmed]
  split
  · exact p.trimmed_finish t _
  · rw [trimmed_tearDown, trimmed_withRegistrar]

theorem trimmed_drainNext (drain : Drain) :
    (p.drainNext t drain).trimmed = p.trimmed.drainNext t drain := by
  unfold drainNext
  rcases drain.rest with _ | ⟨g, rest⟩
  · rfl
  · simp only [trimmed_see, trimmed_setStage, Stage.trimmed, Entry.trimmed, length_tasks_trimmed]
    simp [trimmed, Task.trimmed, Stage.trimmed]

/-! ## Moves -/

theorem trimmed_ask (request : Request) :
    (p.ask request).trimmed = p.trimmed.ask request.trimmed := by
  simp [ask, trimmed, wake, Task.trimmed, Stage.trimmed]

theorem trimmed_begin (parent : Option Nat) (request : Request) :
    (p.begin t parent request).trimmed = p.trimmed.begin t parent request.trimmed := by
  cases request with
  | publish o d =>
    cases parent with
    | none => exact p.trimmed_beginPublish t o d
    | some parent => exact p.trimmed_beginMember t parent o d
  | publishAll o ds => exact p.trimmed_beginBatch t o ds
  | unpublish g => exact p.trimmed_beginUnpublish t g
  | close teardown => exact p.trimmed_beginClose t teardown
  | tryPublish handle d =>
    simp only [begin, Request.trimmed, trimmed_see, trimmed_setStage, Stage.trimmed, Entry.trimmed]
  | tryUnpublish g =>
    simp only [begin, Request.trimmed, trimmed_see, trimmed_setStage, Stage.trimmed, Entry.trimmed]

theorem trimmed_run : (p.run t).trimmed = p.trimmed.run t := by
  unfold run
  by_cases hready : p.ready.contains t
  · -- what the task does in its turn is read off its stage
    simp only [ready_trimmed, hready, if_true, getElem?_tasks_trimmed]
    generalize hq : ({ p with ready := p.ready.erase t } : Publisher) = q
    have hqt : ({ p.trimmed with ready := p.ready.erase t } : Publisher) = q.trimmed := by
      rw [← hq]
      rfl
    rw [hqt]
    rcases p.tasks[t]? with _ | ⟨s, parent⟩
    · rfl
    · cases s with
      | asked request => exact q.trimmed_begin t parent request
      | permitted o d => exact q.trimmed_beginPublish t o d
      | gathering batch => exact q.trimmed_gather t batch
      | waiting teardown => exact q.trimmed_tearDown t teardown
      | draining drain => exact q.trimmed_drainNext t drain
      | _ => rfl
  · simp only [ready_trimmed, hready, Bool.false_eq_true, if_false]

theorem trimmed_abandon : (p.abandon t).trimmed = p.trimmed.abandon t := by
  unfold abandon
  rw [stage?_trimmed]
  rcases p.stage? t with _ | s
  · rfl
  · cases s with
    | gathering batch => exact p.trimmed_setStage t _
    | _ => rfl

/-- **What a move does** is the same whether blanks are taken away before or after it. -/
theorem trimmed_move (m : Move) : (p.move m).trimmed = p.trimmed.move m.trimmed := by
  cases m with
  | ask request => exact p.trimmed_ask request
  | abandon t => exact p.trimmed_abandon t
  | run t => exact p.trimmed_run t
  | answerPublish t answer => exact p.trimmed_answerPublish t answer
  | answerUnpublish t answer => exact p.trimmed_answerUnpublish t answer
  | reserve registry schema =>
    simp only [move, Move.trimmed, reserve, registrar_trimmed, Registrar.reserve_trim]
    rcases p.registrar.reserve registry schema with failure | ⟨key, registrar⟩
    · rfl
    · rfl
  | drop key =>
    simp only [move, Move.trimmed, drop, held_trimmed]
    by_cases hheld : p.held.contains key
    · simp only [hheld, if_true, trimmed_wakeIdle]
      rfl
    · simp only [hheld, Bool.false_eq_true, if_false]
  | register key record handle =>
    simp only [move, Move.trimmed, register, held_trimmed]
    by_cases hheld : p.held.contains key
    · simp only [hheld, if_true, trimmed_wakeIdle]
      rfl
    · simp only [hheld, Bool.false_eq_true, if_false]
  | unregister g => rfl
  | newHandle o => rfl
  | handleFor o => rfl

end Publisher
end SchemaHerald
