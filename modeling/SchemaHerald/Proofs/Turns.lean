import Mathlib.Logic.Relation
import SchemaHerald.Proofs.RegistrarClaims
import SchemaHerald.Proofs.TaskFrames

/-!
# What a task does in its turn

`Step t` lists everything that task `t` can do by itself, and `Reply t` everything that the answer
to its call can do, one rule for each kind of effect. `run_steps`, `abandon_steps` and
`answerPublish_reply`, `answerUnpublish_reply` say that there is nothing else. What holds of a
publisher at all times is proved from these rules, which no later proof looks behind.

A task that publishes always passes through `Stage.permitted` here, also one that nobody limits;
and a task that closes passes through `Stage.waiting`, also when there is nothing to wait for.
-/
namespace SchemaHerald

/-- Whether a move is a use of the registrar by a caller, and nothing that a task does. -/
def Move.isDirect : Move → Bool
  | .reserve .. | .drop _ | .register .. | .unregister _ | .newHandle _ | .handleFor _ => true
  | .ask _ | .abandon _ | .run _ | .answerPublish .. | .answerUnpublish .. => false

/-- The stages at which a task waits for the answer to its call. -/
def Stage.IsCalling : Stage → Prop
  | .publishing .. | .unpublishing _ | .tryingPublish .. | .tryingUnpublish _ => True
  | _ => False

namespace Publisher

open Relation

variable {p q : Publisher} {t : Nat} {s : Stage}

/-- The batch that a publisher makes of a request. -/
def newBatch (p : Publisher) (options : RegistryOptions) (definitions : List Definition) : Batch where
  registry := options.name
  members := (List.range' p.tasks.length definitions.length).zip (definitions.map (·.name))
  permits := p.limit.map (max 1)

/-- The tasks that are the members of a batch. -/
def memberTasks (t : Nat) (options : RegistryOptions) (definitions : List Definition) : List Task :=
  definitions.map fun definition => { stage := .asked (.publish options definition), parent := some t }

/-- The publisher with a batch of task `t` begun. -/
def withBatch (p : Publisher) (t : Nat) (options : RegistryOptions)
    (definitions : List Definition) : Publisher :=
  { p with tasks := p.tasks ++ memberTasks t options definitions }.setStage t
    (.gathering (p.newBatch options definitions))

/-- The publisher with the removal of the next registration of a teardown begun. -/
def withRemoval (p : Publisher) (t : Nat) (d : Drain) (g : Registration)
    (rest : List Registration) : Publisher :=
  let tasks : List Task := p.tasks ++ [{ stage := .unpublishing g, parent := some t }]
  let removals : List Removal := d.removals ++ [{ task := p.tasks.length, registration := g }]
  { p with tasks }.setStage t (.draining { rest, removals })

section Removal
variable (d : Drain) (g : Registration) (rest : List Registration)

/-- The last task of all is the one of the removal. -/
theorem stage?_withRemoval_new (ht : t < p.tasks.length) :
    (p.withRemoval t d g rest).stage? p.tasks.length = some (.unpublishing g) := by
  rw [withRemoval, stage?_setStage_of_ne (Nat.ne_of_gt ht), stage?_append (p := p) rfl,
    if_neg (Nat.lt_irrefl _), Nat.sub_self]
  rfl

theorem parent?_withRemoval (u : Nat) :
    (p.withRemoval t d g rest).parent? u =
      if u = p.tasks.length then some t else p.parent? u := by
  rw [withRemoval, parent?_setStage, parent?_append (p := p) rfl]
  by_cases hlt : u < p.tasks.length
  · rw [if_pos hlt, if_neg (Nat.ne_of_lt hlt)]
  · rw [if_neg hlt]
    by_cases hu : u = p.tasks.length
    · rw [if_pos hu, hu, Nat.sub_self]
      rfl
    · have hnone : p.parent? u = none := by simp [parent?, Nat.le_of_not_lt hlt]
      obtain ⟨n, hn⟩ : ∃ n, u - p.tasks.length = n + 1 :=
        Nat.exists_eq_succ_of_ne_zero (by omega)
      rw [if_neg hu, hn, hnone]
      rfl

end Removal

/-- **What a task does by itself.** -/
inductive Step (t : Nat) (p : Publisher) : Publisher → Prop
  /-- Turns come and go. -/
  | turn (ready : List Nat) : Step t p { p with ready }
  /-- The caller of a batch gives up on it. -/
  | giveUp (b : Batch) (ht : p.stage? t = some (.gathering b)) :
      Step t p (p.setStage t (.gathering { b with abandoned := true }))
  /-- A member of a batch without permits is to wait for one. -/
  | queue (o : RegistryOptions) (d : Definition) (c : Nat) (b : Batch)
      (ht : p.stage? t = some (.asked (.publish o d))) (hp : p.parent? t = some c)
      (hb : p.stage? c = some (.gathering b)) (h0 : b.permits = some 0) :
      Step t p ((p.setStage c (.gathering { b with queue := b.queue ++ [t] })).setStage t
        (.queued o d))
  /-- A member of a batch takes a permit. -/
  | grant (o : RegistryOptions) (d : Definition) (c : Nat) (b : Batch) (n : Nat)
      (ht : p.stage? t = some (.asked (.publish o d))) (hp : p.parent? t = some c)
      (hb : p.stage? c = some (.gathering b)) (hn : b.permits = some (n + 1)) :
      Step t p ((p.setStage c (.gathering { b with permits := some n })).setStage t
        (.permitted o d))
  /-- A publish that nobody limits needs no permit. -/
  | permit (o : RegistryOptions) (d : Definition)
      (ht : p.stage? t = some (.asked (.publish o d)))
      (hfree : ∀ c b, p.parent? t = some c → p.stage? c = some (.gathering b) →
        b.permits = none) :
      Step t p (p.setStage t (.permitted o d))
  /-- A publish is refused before the registry is called. -/
  | refuse (o : RegistryOptions) (d : Definition) (failure : Failure)
      (ht : p.stage? t = some (.permitted o d)) : Step t p (p.finish t (.failed failure))
  /-- A publish reserves its key, and the registry is called. -/
  | reserve (o o' : RegistryOptions) (d : Definition) (k : Key) (r : Registrar)
      (ht : p.stage? t = some (.permitted o d)) (ho : o.canonical? = .ok o')
      (hd : d.name.isEmpty = false)
      (hr : p.registrar.reserve o'.name d.name = .ok (k, r)) :
      Step t p (((p.withRegistrar (r.handleFor o').2).setStage t
        (.publishing k (r.handleFor o').1 (d.stamp r.publisher))).see
          (.publishCall t (r.handleFor o').1 (d.stamp r.publisher)))
  /-- A batch is refused. -/
  | refuseBatch (o : RegistryOptions) (ds : List Definition) (outcome : Outcome)
      (ht : p.stage? t = some (.asked (.publishAll o ds)))
      (ho : (∃ failure, outcome = .failed failure) ∨ ∃ message, outcome = .broken message) :
      Step t p (p.finish t outcome)
  /-- A batch begins. -/
  | beginBatch (o o' : RegistryOptions) (ds : List Definition)
      (ht : p.stage? t = some (.asked (.publishAll o ds))) (hne : ds ≠ [])
      (ho : o.canonical? = .ok o') :
      Step t p ((p.withBatch t o' ds).wake (List.range' p.tasks.length ds.length))
  /-- A batch is complete. -/
  | gather (b : Batch) (ht : p.stage? t = some (.gathering b)) (hb : b.isComplete = true)
      (ha : b.abandoned = false) : Step t p (p.setStage t (.ended b.outcome))
  /-- The registry is called to unpublish. -/
  | unpublish (g : Registration) (ht : p.stage? t = some (.asked (.unpublish g))) :
      Step t p (p.beginUnpublish t g)
  /-- The registry is called to publish, without a registration. -/
  | tryPublish (h : Handle) (d : Definition) (ht : p.stage? t = some (.asked (.tryPublish h d))) :
      Step t p ((p.setStage t (.tryingPublish h d)).see (.publishCall t h d))
  /-- The registry is called to unpublish, without a registration being removed. -/
  | tryUnpublish (g : Registration) (ht : p.stage? t = some (.asked (.tryUnpublish g))) :
      Step t p ((p.setStage t (.tryingUnpublish g)).see (.unpublishCall t g))
  /-- Closing again does nothing. -/
  | closeAgain (td : Teardown) (ht : p.stage? t = some (.asked (.close td)))
      (hc : p.registrar.closed = true) : Step t p (p.finish t .done)
  /-- The registrar is closed; the teardown waits until nothing is reserved. -/
  | close (td : Teardown) (ht : p.stage? t = some (.asked (.close td)))
      (hc : p.registrar.closed = false) :
      Step t p ((p.withRegistrar p.registrar.close).setStage t (.waiting td))
  /-- There is nothing to unpublish, or nothing is unpublished: the registrar is released. -/
  | release (td : Teardown) (outcome : Outcome) (ht : p.stage? t = some (.waiting td))
      (h0 : p.registrar.inFlight = 0)
      (ho : (td = .unpublishing ∧ p.registrar.registrations = [] ∧ outcome = .done) ∨
        ∃ failing unregisters n parts,
          td = .sweeping failing unregisters ∧ outcome = .ofRemovals n parts) :
      Step t p ((p.withRegistrar p.registrar.release).finish t outcome)
  /-- The registrations that there are now are to be unpublished. -/
  | drain (ht : p.stage? t = some (.waiting .unpublishing)) (h0 : p.registrar.inFlight = 0)
      (hne : p.registrar.registrations ≠ []) :
      Step t p ({ p with ready := t :: p.ready }.setStage t
        (.draining { rest := p.registrar.registrations }))
  /-- The next of them is taken up. -/
  | take (d : Drain) (g : Registration) (rest : List Registration) (ready : List Nat)
      (ht : p.stage? t = some (.draining d)) (hr : d.rest = g :: rest) :
      Step t p ({ p.withRemoval t d g rest with ready }.see (.unpublishCall p.tasks.length g))

/-- The publisher with the reservation of a key turned into a registration, and whoever listens
told. -/
def withRegistered (p : Publisher) (k : Key) (record : Record) (h : Handle) : Publisher :=
  let made := p.registrar.register k record h p.listening
  let q := (p.withRegistrar made.2).wakeIdle
  if made.1.listened then q.see (.published made.1) else q

section Registered
variable (p) (k : Key) (record : Record) (h : Handle)

@[simp] theorem registrar_withRegistered :
    (p.withRegistered k record h).registrar = (p.registrar.register k record h p.listening).2 := by
  unfold withRegistered
  dsimp only
  split <;> simp

@[simp] theorem held_withRegistered : (p.withRegistered k record h).held = p.held := by
  unfold withRegistered
  dsimp only
  split <;> simp

@[simp] theorem limit_withRegistered : (p.withRegistered k record h).limit = p.limit := by
  unfold withRegistered
  dsimp only
  split <;> simp

@[simp] theorem listening_withRegistered :
    (p.withRegistered k record h).listening = p.listening := by
  unfold withRegistered
  dsimp only
  split <;> simp

@[simp] theorem withdrawn_withRegistered :
    (p.withRegistered k record h).withdrawn = p.withdrawn := by
  unfold withRegistered
  dsimp only
  split <;> simp

@[simp] theorem tasks_withRegistered : (p.withRegistered k record h).tasks = p.tasks := by
  unfold withRegistered
  dsimp only
  split <;> simp

end Registered

/-- **What the answer to the call of a task does.** -/
inductive Reply (t : Nat) (p : Publisher) : Publisher → Prop
  /-- A publish becomes a registration. -/
  | commit (k : Key) (h : Handle) (d : Definition) (record : Record)
      (ht : p.stage? t = some (.publishing k h d)) :
      Reply t p ((p.withRegistered k record h).finish t
        (.registered (p.registrar.register k record h p.listening).1))
  /-- A publish fails or breaks off, and its reservation is abandoned. -/
  | lose (k : Key) (h : Handle) (d : Definition) (outcome : Outcome)
      (ht : p.stage? t = some (.publishing k h d))
      (ho : (∃ cause, outcome = .failed (.remote k.registry k.schema cause)) ∨
        ∃ message, outcome = .broken message) :
      Reply t p ((p.withRegistrar (p.registrar.abandon k)).wakeIdle.finish t outcome)
  /-- A registration was taken back. -/
  | remove (g : Registration) (ht : p.stage? t = some (.unpublishing g)) :
      Reply t p (((p.withRegistrar (p.registrar.unregister g)).withdraw g).finish t .done)
  /-- A registration was not taken back. -/
  | keep (g : Registration) (cause : Cause) (ht : p.stage? t = some (.unpublishing g)) :
      Reply t p (p.finish t (.failed (.remote g.registry g.schema cause)))
  /-- A call without a registration is over. -/
  | tried (s : Stage) (outcome : Outcome) (ht : p.stage? t = some s)
      (hs : (∃ h d, s = .tryingPublish h d) ∨ ∃ g, s = .tryingUnpublish g)
      (ho : outcome.registration? = none) : Reply t p (p.finish t outcome)

/-- A reply is no call. -/
theorem journal_reply (hs : Reply t p q) :
    q.journal = p.journal ∨
      (∃ g, q.journal = .published g :: p.journal) ∨ ∃ g, q.journal = .unpublished g :: p.journal := by
  cases hs with
  | commit k h d record ht =>
    rw [journal_finish]
    unfold withRegistered
    dsimp only
    split
    · refine .inr (.inl ⟨(p.registrar.register k record h p.listening).1, ?_⟩)
      rw [journal_see, journal_wakeIdle, journal_withRegistrar]
    · exact .inl (by simp)
  | remove g ht =>
    rw [journal_finish]
    unfold withdraw
    split
    · exact .inl (by simp)
    · dsimp only
      split
      · exact .inr (.inr ⟨g, by simp⟩)
      · exact .inl (by simp)
  | lose | keep | tried => exact .inl (by simp)

/-- **Only a task that waits for an answer gets one.** -/
theorem Reply.isCalling (hs : Reply t p q) (ht : p.stage? t = some s) : s.IsCalling := by
  cases hs with
  | commit k h d record ht' | lose k h d outcome ht' | remove g ht' | keep g cause ht' =>
    rw [ht] at ht'
    cases ht'
    trivial
  | tried s' outcome ht' hs ho =>
    rw [ht] at ht'
    cases ht'
    rcases hs with ⟨h, d, rfl⟩ | ⟨g, rfl⟩ <;> trivial

theorem Reply.ne {u : Nat} (hs : Reply t p q) (hu : p.stage? u = some s) (hcall : ¬ s.IsCalling) :
    u ≠ t := by
  rintro rfl
  exact hcall (hs.isCalling hu)

/-! ## A stage that is about to be left does not matter -/

/-- Putting a task where it stands changes nothing. -/
theorem setStage_same (h : p.stage? t = some s) : p.setStage t s = p := by
  obtain ⟨parent, ht⟩ := stage?_eq_some_iff.1 h
  obtain ⟨hlt, hget⟩ := List.getElem?_eq_some_iff.1 ht
  have hsame : p.tasks.modify t (fun task => { task with stage := s }) = p.tasks := by
    refine List.ext_getElem? fun u => ?_
    rw [List.getElem?_modify]
    by_cases hu : t = u
    · subst hu
      simp [ht]
    · simp [hu]
  unfold setStage
  rw [hsame]

theorem finish_setStage (p : Publisher) (t : Nat) (s : Stage) (o : Outcome) :
    (p.setStage t s).finish t o = p.finish t o := by
  have hparent : (p.setStage t s).tasks[t]?.bind (·.parent) = p.tasks[t]?.bind (·.parent) :=
    parent?_setStage p t s t
  unfold finish
  rw [hparent]
  split <;> rw [setStage_setStage]

theorem beginPublish_setStage (p : Publisher) (t : Nat) (s : Stage) (o : RegistryOptions)
    (d : Definition) : (p.setStage t s).beginPublish t o d = p.beginPublish t o d := by
  unfold beginPublish
  split
  · rw [finish_setStage]
  · split
    · rw [finish_setStage]
    · rw [registrar_setStage]
      split
      · rw [finish_setStage]
      · dsimp only
        exact congrArg (see · _) (setStage_setStage (p.withRegistrar _) t s _)

theorem tearDown_setStage (p : Publisher) (t : Nat) (s : Stage) (td : Teardown) :
    (p.setStage t s).tearDown t td = p.tearDown t td := by
  unfold tearDown beginDrain
  rw [registrar_setStage]
  split
  · cases td with
    | sweeping failing unregisters => exact finish_setStage (p.withRegistrar _) t s _
    | unpublishing =>
      dsimp only
      split
      · exact finish_setStage (p.withRegistrar _) t s _
      · exact setStage_setStage { p with ready := t :: p.ready } t s _
  · exact setStage_setStage p t s _

/-! ## Turns -/

theorem step_beginPublish {o : RegistryOptions} {d : Definition}
    (ht : p.stage? t = some (.permitted o d)) : Step t p (p.beginPublish t o d) := by
  unfold beginPublish
  split
  · exact .refuse o d _ ht
  · rename_i o' ho
    split
    · exact .refuse o d _ ht
    · rename_i hd
      split
      · exact .refuse o d _ ht
      · rename_i k r hr
        have hstep := Step.reserve o o' d k r ht ho (Bool.eq_false_iff.2 hd) hr
        simpa using hstep

theorem steps_beginMember {o : RegistryOptions} {d : Definition} {c : Nat}
    (ht : p.stage? t = some (.asked (.publish o d))) (hp : p.parent? t = some c) :
    ReflTransGen (Step t) p (p.beginMember t c o d) := by
  -- nobody limits a member whose batch has no permits to give or is not there any more
  have alone : (∀ b, p.stage? c = some (.gathering b) → b.permits = none) →
      ReflTransGen (Step t) p (p.beginPublish t o d) := by
    intro hfree
    have hpermit : Step t p (p.setStage t (.permitted o d)) :=
      .permit o d ht fun c' b hc' hb => hfree b (by rwa [← Option.some.inj (hp.symm.trans hc')] at hb)
    refine .tail (.single hpermit) ?_
    rw [← beginPublish_setStage p t (.permitted o d)]
    exact step_beginPublish (stage?_setStage_self ht)
  unfold beginMember
  split
  · rename_i b hb
    have hne : t ≠ c := fun he => by
      rw [← he, ht] at hb
      cases hb
    split
    · rename_i h0
      exact .single (.queue o d c b ht hp hb h0)
    · rename_i n hn
      refine .tail (.single (.grant o d c b n ht hp hb hn)) ?_
      rw [← beginPublish_setStage _ t (.permitted o d)]
      exact step_beginPublish (stage?_setStage_self ((stage?_setStage_of_ne hne).trans ht))
    · rename_i hnone
      exact alone fun b' hb' => by
        rw [hb] at hb'
        cases hb'
        exact hnone
  · rename_i hno
    exact alone fun b hb => absurd hb (hno b)

theorem steps_tearDown {td : Teardown} (ht : p.stage? t = some (.waiting td)) :
    ReflTransGen (Step t) p (p.tearDown t td) := by
  unfold tearDown
  split
  · rename_i h0
    unfold beginDrain
    cases td with
    | sweeping failing unregisters =>
      -- what a sweep takes away one by one goes at once when the registrar is released
      dsimp only [sweep]
      rw [Registrar.release_foldl_unregister]
      exact .single (.release _ _ ht h0 (.inr ⟨failing, unregisters, _, _, rfl, rfl⟩))
    | unpublishing =>
      dsimp only
      split
      · rename_i hnil
        exact .single (.release _ _ ht h0 (.inl ⟨rfl, List.isEmpty_iff.1 hnil, rfl⟩))
      · rename_i hne
        exact .single (.drain ht h0 fun hnil => hne (List.isEmpty_iff.2 hnil))
  · rw [setStage_same ht]

theorem step_beginBatch {o : RegistryOptions} {ds : List Definition}
    (ht : p.stage? t = some (.asked (.publishAll o ds))) : Step t p (p.beginBatch t o ds) := by
  unfold beginBatch
  split
  · exact .refuseBatch o ds _ ht (.inl ⟨_, rfl⟩)
  · rename_i hne
    split
    · exact .refuseBatch o ds _ ht (.inl ⟨_, rfl⟩)
    · rename_i o' ho
      dsimp only
      split
      · exact .refuseBatch o ds _ ht (.inr ⟨_, rfl⟩)
      · exact .beginBatch o o' ds ht (fun hnil => hne (List.isEmpty_iff.2 hnil)) ho

theorem steps_beginClose {td : Teardown} (ht : p.stage? t = some (.asked (.close td))) :
    ReflTransGen (Step t) p (p.beginClose t td) := by
  unfold beginClose
  split
  · rename_i hc
    exact .single (.closeAgain td ht hc)
  · rename_i hc
    refine .head (.close td ht (Bool.eq_false_iff.2 hc)) ?_
    rw [← tearDown_setStage _ t (.waiting td)]
    exact steps_tearDown (stage?_setStage_self (s := .asked (.close td)) ht)

/-- The first turn of a task. -/
theorem steps_begin {request : Request} {parent : Option Nat}
    (htask : p.tasks[t]? = some { stage := .asked request, parent }) :
    ReflTransGen (Step t) p (p.begin t parent request) := by
  have ht := stage?_eq_some_iff.2 ⟨parent, htask⟩
  cases request with
  | publish o d =>
    cases parent with
    | none =>
      have hnone : p.parent? t = none := by simp [parent?, htask]
      refine .head (.permit o d ht fun c b hc => ?_) (.single ?_)
      · rw [hnone] at hc
        cases hc
      · dsimp only [begin]
        rw [← beginPublish_setStage p t (.permitted o d)]
        exact step_beginPublish (stage?_setStage_self ht)
    | some c => exact steps_beginMember ht (by simp [parent?, htask])
  | publishAll o ds =>
    dsimp only [begin]
    exact .single (step_beginBatch ht)
  | unpublish g => exact .single (.unpublish g ht)
  | close td => exact steps_beginClose ht
  | tryPublish h d => exact .single (.tryPublish h d ht)
  | tryUnpublish g => exact .single (.tryUnpublish g ht)

/-- **The turn of a task** consists of steps of that task. -/
theorem run_steps (p : Publisher) (t : Nat) : ReflTransGen (Step t) p (p.run t) := by
  unfold run
  split
  · refine .head (.turn (p.ready.erase t)) ?_
    dsimp only
    -- the turn of the task is taken: all that follows is about the publisher without it
    generalize hp' : ({ p with ready := p.ready.erase t } : Publisher) = p'
    have htasks : p.tasks = p'.tasks := by rw [← hp']
    rw [htasks]
    clear htasks hp'
    split
    · rename_i request parent htask
      exact steps_begin htask
    · rename_i o d parent htask
      exact .single (step_beginPublish (stage?_eq_some_iff.2 ⟨parent, htask⟩))
    · rename_i b parent htask
      have ht := stage?_eq_some_iff.2 ⟨parent, htask⟩
      unfold gather
      split
      · rename_i h
        simp only [Bool.and_eq_true, Bool.not_eq_true'] at h
        exact .single (.gather b ht h.1 h.2)
      · exact .refl
    · rename_i td parent htask
      exact steps_tearDown (stage?_eq_some_iff.2 ⟨parent, htask⟩)
    · rename_i d parent htask
      have ht := stage?_eq_some_iff.2 ⟨parent, htask⟩
      cases hr : d.rest with
      | nil =>
        unfold drainNext
        rw [hr]
      | cons g rest =>
        unfold drainNext
        rw [hr]
        exact .single (.take d g rest _ ht hr)
    · exact .refl
  · exact .refl

/-- A task that is not ready has no turn. -/
theorem run_of_not_ready (h : t ∉ p.ready) : p.run t = p := by
  unfold run
  rw [if_neg fun hready => h (List.contains_iff_mem.1 hready)]

theorem abandon_steps (p : Publisher) (t : Nat) : ReflTransGen (Step t) p (p.abandon t) := by
  unfold abandon
  split
  · rename_i b hb
    exact .single (.giveUp b hb)
  · exact .refl

/-- **The answer to a publish** does nothing or is a reply to that task. -/
theorem answerPublish_reply (p : Publisher) (t : Nat) (answer : Answer) :
    p.answerPublish t answer = p ∨ Reply t p (p.answerPublish t answer) := by
  unfold answerPublish
  split
  · rename_i k h d ht
    cases answer with
    | record record => exact .inr (.commit k h d record ht)
    | refused cause => exact .inr (.lose k h d _ ht (.inl ⟨cause, rfl⟩))
    | broken message => exact .inr (.lose k h d _ ht (.inr ⟨message, rfl⟩))
  · rename_i h d ht
    cases answer with
    | record record => exact .inr (.tried _ _ ht (.inl ⟨h, d, rfl⟩) rfl)
    | refused cause => exact .inr (.tried _ _ ht (.inl ⟨h, d, rfl⟩) rfl)
    | broken message => exact .inr (.tried _ _ ht (.inl ⟨h, d, rfl⟩) rfl)
  · exact .inl rfl

/-- An answer that nobody waits for does nothing. -/
theorem answerPublish_of_not_calling (hs : p.stage? t = some s) (hcall : ¬ s.IsCalling)
    (answer : Answer) : p.answerPublish t answer = p :=
  (answerPublish_reply p t answer).resolve_right fun hreply => hcall (hreply.isCalling hs)

/-- **The answer to an unpublish** does nothing or is a reply to that task. -/
theorem answerUnpublish_reply (p : Publisher) (t : Nat) (answer : Except Cause Unit) :
    p.answerUnpublish t answer = p ∨ Reply t p (p.answerUnpublish t answer) := by
  unfold answerUnpublish
  split
  · rename_i g ht
    cases answer with
    | ok _ => exact .inr (.remove g ht)
    | error cause => exact .inr (.keep g cause ht)
  · rename_i g ht
    cases answer with
    | ok _ => exact .inr (.tried _ _ ht (.inr ⟨g, rfl⟩) rfl)
    | error cause => exact .inr (.tried _ _ ht (.inr ⟨g, rfl⟩) rfl)
  · exact .inl rfl

/-- **What asking, steps, replies and direct uses keep** is kept by every move. -/
theorem move_induction {P : Publisher → Prop} (m : Move)
    (hask : ∀ request, m = .ask request → P (p.ask request))
    (hstep : ∀ t q q', Step t q q' → P q → P q') (hreply : ∀ t q, Reply t p q → P q)
    (hdirect : m.isDirect = true → P (p.move m)) (hp : P p) : P (p.move m) := by
  have hsteps : ∀ t q, ReflTransGen (Step t) p q → P q := by
    intro t q hs
    induction hs with
    | refl => exact hp
    | tail _ hs ih => exact hstep _ _ _ hs ih
  cases m with
  | ask request => exact hask request rfl
  | abandon t => exact hsteps t _ (abandon_steps p t)
  | run t => exact hsteps t _ (run_steps p t)
  | answerPublish t answer =>
    rcases answerPublish_reply p t answer with he | hr
    · rw [Publisher.move, he]
      exact hp
    · exact hreply t _ hr
  | answerUnpublish t answer =>
    rcases answerUnpublish_reply p t answer with he | hr
    · rw [Publisher.move, he]
      exact hp
    · exact hreply t _ hr
  | reserve | drop | register | unregister | newHandle | handleFor => exact hdirect rfl

theorem moves_append (p : Publisher) (ms ms' : List Move) :
    p.moves (ms ++ ms') = (p.moves ms).moves ms' := List.foldl_append

theorem moves_concat (p : Publisher) (ms : List Move) (m : Move) :
    p.moves (ms ++ [m]) = (p.moves ms).move m := List.foldl_append

/-! ## Direct uses of the registrar -/

/-- Waking those who wait changes who can go on, and nothing else. -/
theorem exists_wakeIdle (p : Publisher) : ∃ ready, p.wakeIdle = { p with ready } := by
  unfold wakeIdle
  split
  · exact ⟨_, rfl⟩
  · exact ⟨p.ready, rfl⟩

/-- **Direct uses** concern the registrar, the keys that callers have reserved and who can go on. -/
theorem move_of_isDirect (p : Publisher) {m : Move} (hm : m.isDirect = true) :
    ∃ registrar held ready, p.move m = { p with registrar, held, ready } := by
  cases m with
  | reserve registry schema =>
    simp only [move, Publisher.reserve]
    cases p.registrar.reserve registry schema <;> exact ⟨_, _, _, rfl⟩
  | drop k =>
    simp only [move, drop]
    split
    · obtain ⟨ready, hready⟩ := exists_wakeIdle
        { p with registrar := p.registrar.abandon k, held := p.held.erase k }
      exact ⟨_, _, ready, hready⟩
    · exact ⟨_, _, _, rfl⟩
  | register k record handle =>
    simp only [move]
    split
    · rename_i q hq
      simp only [register] at hq
      split at hq
      · cases hq
        obtain ⟨ready, hready⟩ := exists_wakeIdle { p with
          registrar := (p.registrar.register k record handle true).2, held := p.held.erase k }
        exact ⟨_, _, ready, hready⟩
      · cases hq
    · exact ⟨_, _, _, rfl⟩
  | unregister | newHandle | handleFor => exact ⟨_, _, _, rfl⟩
  | ask | abandon | run | answerPublish | answerUnpublish => cases hm

/-- Direct uses do not concern the tasks. -/
theorem tasks_of_isDirect (p : Publisher) {m : Move} (hm : m.isDirect = true) :
    (p.move m).tasks = p.tasks := by
  obtain ⟨registrar, held, ready, he⟩ := p.move_of_isDirect hm
  rw [he]

/-- Direct uses are not seen. -/
theorem journal_of_isDirect (p : Publisher) {m : Move} (hm : m.isDirect = true) :
    (p.move m).journal = p.journal := by
  obtain ⟨registrar, held, ready, he⟩ := p.move_of_isDirect hm
  rw [he]

/-- The limit of a publisher is for all time. -/
theorem limit_move (p : Publisher) (m : Move) : (p.move m).limit = p.limit := by
  refine move_induction (P := fun q => q.limit = p.limit) m (fun _ _ => rfl) ?_ ?_ ?_ rfl
  · intro t q q' hs hq
    rw [← hq]
    cases hs <;> simp [beginUnpublish, withBatch, withRemoval]
  · intro t q hs
    cases hs <;> simp
  · intro hm
    obtain ⟨registrar, held, ready, he⟩ := p.move_of_isDirect hm
    rw [he]

theorem limit_moves (p : Publisher) (ms : List Move) : (p.moves ms).limit = p.limit := by
  induction ms generalizing p with
  | nil => rfl
  | cons m ms ih => exact (ih (p.move m)).trans (limit_move p m)

end Publisher
end SchemaHerald
