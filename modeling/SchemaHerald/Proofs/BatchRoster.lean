import SchemaHerald.Proofs.BatchTurns
import SchemaHerald.Proofs.ConcurrentBatches
import SchemaHerald.Proofs.PermitRoster

/-!
# A batch is a roster

`Publisher.roster` reads a batch that is under way as a roster: how far its members have come, who waits
for a permit, what permits and turns are left, and who has had the registry called.
`Sound.roster_move` says that a publisher moves as its rosters do. Whatever happens, happens to each
batch by one of the steps of `Roster.Step`.

So what holds of a roster at all times holds of every batch of a publisher (`Crews`), also when others
publish, close or use the registrar directly in between, and when the caller has given up on it.
-/
namespace SchemaHerald

namespace Stage

/-- How far a member of a batch has come that stands there. -/
def phase : Stage → Phase
  | .asked _ => .fresh
  | .queued .. => .waiting
  | .permitted .. => .letIn
  | .publishing .. => .calling
  | _ => .ended

/-- What a publish is for that has not begun. -/
def definition? : Stage → Option Definition
  | .asked (.publish _ d) | .queued _ d | .permitted _ d => some d
  | _ => none

end Stage

namespace Publisher

variable {p q : Publisher} {c t u : Nat} {s s' : Stage} {b b' : Batch} {o : RegistryOptions}
  {d : Definition} {out : Outcome} {m : Move} {sign : Nat → Definition}
  {ts : List Nat} {limit : Option Nat}

/-! ## Reading a batch -/

/-- How far a task has come as a member of the batch of task `c`. -/
def phaseOf (p : Publisher) (c t : Nat) : Phase :=
  if p.parent? t = some c then ((p.stage? t).map Stage.phase).getD .ended else .ended

/-- **The members of the batch of task `c`** and their permits. -/
def roster (p : Publisher) (c : Nat) (b : Batch) : Roster where
  phase := p.phaseOf c
  queue := b.queue
  permits := b.permits
  turns := p.turnsOf c
  calls := p.callsOf c

/-- The queue and the permits are those of the batch. -/
theorem roster_batch (p : Publisher) (c : Nat) (b b' : Batch) : p.roster c b' =
    { p.roster c b with queue := b'.queue, permits := b'.permits } := rfl

theorem phaseOf_member (hp : p.parent? t = some c) (hs : p.stage? t = some s) :
    p.phaseOf c t = s.phase := by
  rw [phaseOf, if_pos hp, hs]
  rfl

theorem phaseOf_other (hp : p.parent? t ≠ some c) : p.phaseOf c t = .ended := if_neg hp

/-- Who has not ended is a member, and stands somewhere. -/
theorem exists_of_phaseOf (h : p.phaseOf c t ≠ .ended) :
    p.parent? t = some c ∧ ∃ s, p.stage? t = some s ∧ s.phase = p.phaseOf c t := by
  by_cases hp : p.parent? t = some c
  · refine ⟨hp, ?_⟩
    cases hs : p.stage? t with
    | none =>
      rw [phaseOf, if_pos hp, hs] at h
      exact absurd rfl h
    | some s => exact ⟨s, rfl, (phaseOf_member hp hs).symm⟩
  · exact absurd (phaseOf_other hp) h

theorem queued_of_phaseOf (h : p.phaseOf c t = .waiting) :
    p.parent? t = some c ∧ ∃ o d, p.stage? t = some (.queued o d) := by
  obtain ⟨hp, s, hs, hphase⟩ := exists_of_phaseOf (p := p) (t := t) (c := c) (by simp [h])
  refine ⟨hp, ?_⟩
  rw [h] at hphase
  cases s with
  | queued o d => exact ⟨o, d, hs⟩
  | _ => cases hphase

theorem publishing_of_phaseOf (h : p.phaseOf c t = .calling) :
    p.parent? t = some c ∧ ∃ k handle d, p.stage? t = some (.publishing k handle d) := by
  obtain ⟨hp, s, hs, hphase⟩ := exists_of_phaseOf (p := p) (t := t) (c := c) (by simp [h])
  refine ⟨hp, ?_⟩
  rw [h] at hphase
  cases s with
  | publishing k handle d => exact ⟨k, handle, d, hs⟩
  | _ => cases hphase

/-! ## Rosters and small operations -/

theorem roster_congr (hphase : q.phaseOf c = p.phaseOf c) (hturns : q.turnsOf c = p.turnsOf c)
    (hcalls : q.callsOf c = p.callsOf c) (b : Batch) : q.roster c b = p.roster c b := by
  rw [roster, hphase, hturns, hcalls]
  rfl

/-- What is left alone reads the same. -/
theorem Aside.roster (h : Aside c p q) (b : Batch) : q.roster c b = p.roster c b := by
  refine roster_congr ?_ h.turns h.calls b
  funext u
  by_cases hu : p.parent? u = some c
  · rw [phaseOf, phaseOf, if_pos hu, if_pos ((h.parent u).2 hu), h.stage u hu]
  · rw [phaseOf_other hu, phaseOf_other fun hq => hu ((h.parent u).1 hq)]

/-- A member comes to another stage. -/
theorem roster_setStage (hp : p.parent? t = some c) (hs : p.stage? t = some s') (s : Stage)
    (b : Batch) : (p.setStage t s).roster c b =
      { p.roster c b with phase := Function.update (p.roster c b).phase t s.phase } := by
  have hparent : ∀ u, (p.setStage t s).parent? u = some c ↔ p.parent? u = some c := by
    intro u
    rw [parent?_setStage]
  have hphase : (p.setStage t s).phaseOf c = Function.update (p.phaseOf c) t s.phase := by
    funext u
    by_cases hut : u = t
    · subst hut
      rw [Function.update_self]
      exact phaseOf_member ((hparent u).2 hp) (stage?_setStage_self hs)
    · rw [Function.update_of_ne hut, phaseOf, phaseOf, stage?_setStage_of_ne hut]
      simp only [hparent]
  have hturns : (p.setStage t s).turnsOf c = p.turnsOf c := turnsOf_congr hparent rfl
  have hcalls : (p.setStage t s).callsOf c = p.callsOf c := callsOf_congr hparent rfl
  rw [roster, hphase, hturns, hcalls]
  rfl

/-- Another task comes to another stage. -/
theorem roster_setStage_other (hp : p.parent? t ≠ some c) (s : Stage) (b : Batch) :
    (p.setStage t s).roster c b = p.roster c b := by
  have hparent : ∀ u, (p.setStage t s).parent? u = some c ↔ p.parent? u = some c := by
    intro u
    rw [parent?_setStage]
  refine roster_congr ?_ (turnsOf_congr hparent rfl) (callsOf_congr hparent rfl) b
  funext u
  by_cases hu : p.parent? u = some c
  · have hut : u ≠ t := fun he => hp (he ▸ hu)
    rw [phaseOf, phaseOf, if_pos hu, if_pos ((hparent u).2 hu), stage?_setStage_of_ne hut]
  · rw [phaseOf_other hu, phaseOf_other fun hq => hu ((hparent u).1 hq)]

theorem roster_wake_other {us : List Nat} (hus : ∀ u ∈ us, p.parent? u ≠ some c) (b : Batch) :
    (p.wake us).roster c b = p.roster c b :=
  (aside_wake hus).roster b

theorem roster_wake (hp : p.parent? t = some c) (hnot : t ∉ p.turnsOf c) (b : Batch) :
    (p.wake [t]).roster c b = { p.roster c b with turns := (p.roster c b).turns ++ [t] } := by
  have hturns : (p.wake [t]).turnsOf c = p.turnsOf c ++ [t] :=
    turnsOf_wake_member hp fun hready => hnot (mem_turnsOf_iff.2 ⟨hready, hp⟩)
  rw [roster, hturns]
  rfl

theorem roster_erase (p : Publisher) (c t : Nat) (b : Batch) :
    ({ p with ready := p.ready.erase t } : Publisher).roster c b =
      { p.roster c b with turns := (p.roster c b).turns.erase t } := by
  rw [roster, turnsOf_erase]
  rfl

/-- The registry is called for a member. -/
theorem roster_see (hp : p.parent? t = some c) (handle : Handle) (d : Definition) (b : Batch) :
    (p.see (.publishCall t handle d)).roster c b =
      { p.roster c b with calls := (p.roster c b).calls ++ [(t, d)] } := by
  have hcalls : (p.see (.publishCall t handle d)).callsOf c = p.callsOf c ++ [(t, d)] := by
    rw [callsOf, journal_see, List.reverse_cons, List.filterMap_append]
    refine congrArg (_ ++ ·) ?_
    simp [parent?_congr (tasks_see p _), hp]
  rw [roster, hcalls]
  rfl

/-! ## Members that go on and members that end -/

/-- **A member of a batch**, as far as its own moves go: where it and its batch stand, and who waits. -/
structure Member (p : Publisher) (c : Nat) (b : Batch) (t : Nat) (s : Stage) : Prop where
  parent : p.parent? t = some c
  root : p.parent? c ≠ some c
  batch : p.stage? c = some (.gathering b)
  stage : p.stage? t = some s
  queue : ∀ u ∈ (p.roster c b).queue, (p.roster c b).phase u = .waiting
  turns : ∀ u ∈ (p.roster c b).turns, (p.roster c b).phase u ≠ .waiting

theorem Member.ne (h : Member p c b t s) : t ≠ c := by
  rintro rfl
  exact h.root h.parent

section Passing
variable {next : Nat} {queue : List Nat}

theorem parent?_passPermit (u : Nat) : (p.passPermit c b queue next o d).parent? u = p.parent? u :=
  (parent?_setStage ..).trans (parent?_setStage ..)

theorem stage?_passPermit_of_ne (hun : u ≠ next) (huc : u ≠ c) :
    (p.passPermit c b queue next o d).stage? u = p.stage? u :=
  (stage?_setStage_of_ne hun).trans (stage?_setStage_of_ne huc)

/-- A permit that is passed on lets the member in that waited for it. -/
theorem roster_passPermit (hroot : p.parent? c ≠ some c) (hparent : p.parent? next = some c)
    (hnc : next ≠ c) (hs : p.stage? next = some s) (hturn : next ∉ p.turnsOf c) (b' : Batch) :
    (p.passPermit c b queue next o d).roster c b' = { p.roster c b' with
      phase := Function.update (p.roster c b').phase next .letIn
      turns := (p.roster c b').turns ++ [next] } := by
  have hbatch : (p.setStage c (.gathering { b with queue })).roster c b' = p.roster c b' :=
    roster_setStage_other hroot ..
  have hletIn : ((p.setStage c (.gathering { b with queue })).setStage next (.permitted o d)).roster
      c b' = { p.roster c b' with phase := Function.update (p.roster c b').phase next .letIn } := by
    rw [roster_setStage (by simpa using hparent) ((stage?_setStage_of_ne hnc).trans hs), hbatch]
    rfl
  have hno : next ∉ (Roster.turns (((p.setStage c (.gathering { b with queue })).setStage next
      (.permitted o d)).roster c b')) := by
    rw [hletIn]
    exact hturn
  unfold passPermit
  rw [roster_wake (by simpa using hparent) hno, hletIn]

end Passing

/-- **The end of a member**, in whichever way it had gone on. -/
theorem Member.finish (h : Member p c b t s) (hwaits : s.phase ≠ .waiting) (out : Outcome) :
    ∃ b', (p.finish t out).stage? c = some (.gathering b') ∧ b'.members = b.members ∧
      (p.finish t out).roster c b' = (p.roster c b).leave t := by
  have hne := h.ne
  have hroot : ∀ u ∈ [c], p.parent? u ≠ some c := fun u hu => List.mem_singleton.1 hu ▸ h.root
  cases hq : b.queue with
  | nil =>
    rw [finish_of_queue_nil h.parent h.batch hne hq, Roster.leave_of_nil hq]
    refine ⟨_, (stage?_setStage_of_ne hne.symm).trans (stage?_setStage_self h.batch), rfl, ?_⟩
    rw [roster_wake_other (by simpa using hroot), roster_setStage (by simpa using h.parent)
      ((stage?_setStage_of_ne hne).trans h.stage), roster_setStage_other h.root]
    rfl
  | cons next queue =>
    have hnext : p.phaseOf c next = .waiting := h.queue next (by simp [roster, hq])
    obtain ⟨hparent, o, d, hs⟩ := queued_of_phaseOf hnext
    have hnt : next ≠ t := by
      rintro rfl
      exact hwaits ((phaseOf_member h.parent h.stage).symm.trans hnext)
    have hnc : next ≠ c := fun he => h.root (he ▸ hparent)
    have hturn : next ∉ p.turnsOf c := fun hturn => h.turns next hturn hnext
    have hbatch : (p.passPermit c b queue next o d).stage? c = some (.gathering { b with queue }) :=
      (stage?_setStage_of_ne hnc.symm).trans (stage?_setStage_self h.batch)
    have hstage : (p.passPermit c b queue next o d).stage? t = some s :=
      (stage?_passPermit_of_ne hnt.symm hne).trans h.stage
    rw [finish_of_queue_cons h.parent h.batch hne hq hs hnt hnc, Roster.leave_of_cons hq,
      Function.update_comm hnt.symm]
    refine ⟨_, (stage?_setStage_of_ne hne.symm).trans (stage?_setStage_self hbatch), rfl, ?_⟩
    rw [roster_wake_other (by simpa [parent?_passPermit] using hroot),
      roster_setStage (by simpa [parent?_passPermit] using h.parent)
        ((stage?_setStage_of_ne hne).trans hstage),
      roster_setStage_other (by simpa [parent?_passPermit] using h.root),
      roster_passPermit h.root hparent hnc hs hturn]
    rfl

/-- **A member that may go on** has the registry called or is refused. -/
theorem Member.beginPublish {r : Roster} {permits : Option Nat} (h : Member p c b t s)
    (hwaits : s.phase ≠ .waiting) (ht : t ∈ r.turns) (ha : r.Admits t permits)
    (hr : p.roster c b = { r with permits, turns := r.turns.erase t })
    (hsign : sign t = d.stamp p.registrar.publisher) :
    ∃ b', (p.beginPublish t o d).stage? c = some (.gathering b') ∧ b'.members = b.members ∧
      r.Step sign (.run t) ((p.beginPublish t o d).roster c b') := by
  have refused : ∀ out, ∃ b', (p.finish t out).stage? c = some (.gathering b') ∧
      b'.members = b.members ∧ r.Step sign (.run t) ((p.finish t out).roster c b') := by
    intro out
    obtain ⟨b', hb', hmembers, hleave⟩ := h.finish hwaits out
    refine ⟨b', hb', hmembers, ?_⟩
    rw [hleave, hr, ← Roster.leave_goOn]
    exact .refuse t permits ht ha
  unfold Publisher.beginPublish
  split
  · exact refused _
  · rename_i o' ho
    split
    · exact refused _
    · split
      · exact refused _
      · rename_i k r' hreserve
        dsimp only
        obtain ⟨-, -, -, hr'⟩ := Registrar.reserve_eq_ok_iff.1 hreserve
        have hpublisher : (r'.handleFor o').2.publisher = p.registrar.publisher := by
          rw [Registrar.publisher_handleFor, hr']
        have hset : ((p.withRegistrar (r'.handleFor o').2).setStage t (.publishing k
            (r'.handleFor o').1 (d.stamp (r'.handleFor o').2.publisher))).roster c b =
              r.goOn t permits := by
          rw [roster_setStage (p := p.withRegistrar (r'.handleFor o').2) h.parent h.stage,
            (aside_withRegistrar _).roster, hr]
          rfl
        refine ⟨b, (stage?_setStage_of_ne h.ne.symm).trans h.batch, rfl, ?_⟩
        rw [roster_see (by rw [parent?_setStage]; exact h.parent), hset, hpublisher, ← hsign]
        exact .call t permits ht ha

/-- **A member begins**: it waits for a permit, or it may go on. -/
theorem Member.beginMember {r : Roster} (h : Member p c b t (.asked (.publish o d)))
    (ht : t ∈ r.turns) (hfresh : r.phase t = .fresh)
    (hr : p.roster c b = { r with turns := r.turns.erase t })
    (hsign : sign t = d.stamp p.registrar.publisher) :
    ∃ b', (p.beginMember t c o d).stage? c = some (.gathering b') ∧ b'.members = b.members ∧
      r.Step sign (.run t) ((p.beginMember t c o d).roster c b') := by
  have hpermits : b.permits = r.permits := congrArg Roster.permits hr
  have hqueue : b.queue = r.queue := congrArg Roster.queue hr
  have hne := h.ne
  unfold Publisher.beginMember
  rw [h.batch]
  dsimp only
  split
  · rename_i h0
    refine ⟨_, (stage?_setStage_of_ne hne.symm).trans (stage?_setStage_self h.batch), rfl, ?_⟩
    have hwait : ((p.setStage c (.gathering { b with queue := b.queue ++ [t] })).setStage t
        (.queued o d)).roster c { b with queue := b.queue ++ [t] } = r.wait t := by
      rw [roster_setStage (by simpa using h.parent) ((stage?_setStage_of_ne hne).trans h.stage),
        roster_setStage_other h.root, roster_batch p c b, hr, Roster.wait, ← hqueue, hpermits]
      rfl
    rw [hwait]
    exact .wait t ht hfresh (hpermits ▸ h0)
  · rename_i n hn
    have hset : (p.setStage c (.gathering { b with permits := some n })).roster c
        { b with permits := some n } =
          { r with permits := some n, turns := r.turns.erase t } := by
      rw [roster_setStage_other h.root, roster_batch p c b, hr, hqueue]
    have hqueues := h.queue
    have hturns := h.turns
    rw [hr] at hqueues hturns
    have hgranted : Member (p.setStage c (.gathering { b with permits := some n })) c
        { b with permits := some n } t (.asked (.publish o d)) :=
      ⟨(parent?_setStage ..).trans h.parent, by rw [parent?_setStage]; exact h.root,
        stage?_setStage_self h.batch, (stage?_setStage_of_ne hne).trans h.stage,
        hset ▸ hqueues, hset ▸ hturns⟩
    have htaken : r.Admits t (some n) := .taken n hfresh (hpermits ▸ hn)
    exact hgranted.beginPublish (by simp [Stage.phase]) ht htaken hset hsign
  · rename_i hnone
    have hfree : r.Admits t none := .free hfresh (hpermits ▸ hnone)
    refine h.beginPublish (by simp [Stage.phase]) ht hfree ?_ hsign
    rw [hr, ← hpermits, hnone]

/-- **The turn of a member.** -/
theorem Sound.roster_turn (h : p.Sound) (hkin : p.Kin) (hr : (p.roster c b).Sound ts limit)
    (hc : p.stage? c = some (.gathering b)) (ht : t ∈ p.turnsOf c)
    (hsign : ∀ t s d, p.parent? t = some c → p.stage? t = some s → s.definition? = some d →
      sign t = d.stamp p.registrar.publisher) :
    ∃ b', (p.run t).stage? c = some (.gathering b') ∧ b'.members = b.members ∧
      (p.roster c b).Step sign (.run t) ((p.run t).roster c b') := by
  obtain ⟨hready, hparent⟩ := mem_turnsOf_iff.1 ht
  have hkept : BatchKept p c b := hkin c _ hc
  obtain ⟨s, hs, hmember⟩ := hkept.member t hparent
  have hphase : (p.roster c b).phase t = s.phase := phaseOf_member hparent hs
  have herased := roster_erase p c t b
  have hactive : Member { p with ready := p.ready.erase t } c b t s := by
    refine ⟨hparent, h.parents.ne_self c, hc, hs, ?_, ?_⟩
    · rw [herased]
      exact fun u hu => (hr.queue u).1 hu
    · rw [herased]
      intro u hu hwaits
      have hcan := (hr.turns u).1 (List.mem_of_mem_erase hu)
      rw [show (p.roster c b).phase u = .waiting from hwaits] at hcan
      exact hcan
  obtain ⟨parent, htask⟩ := stage?_eq_some_iff.1 hs
  unfold Publisher.run
  rw [if_pos (List.contains_iff_mem.2 hready)]
  dsimp only
  rw [htask]
  cases s with
  | asked request =>
    cases request with
    | publish o d =>
      obtain rfl : parent = some c := by simpa [parent?, htask] using hparent
      exact hactive.beginMember ht hphase herased (hsign t _ d hparent hs rfl)
    | _ => exact hmember.elim
  | permitted o d =>
    have hletIn : (p.roster c b).Admits t b.permits := .letIn hphase
    exact hactive.beginPublish (by simp [Stage.phase]) ht hletIn herased
      (hsign t _ d hparent hs rfl)
  | _ =>
    have hcan := (hr.turns t).1 ht
    rw [hphase] at hcan
    exact hcan.elim

/-- **The answer to the call for a member.** -/
theorem Sound.roster_answer (h : p.Sound) (hapart : Apart c p) (hr : (p.roster c b).Sound ts limit)
    (hc : p.stage? c = some (.gathering b)) (ht : p.phaseOf c t = .calling) (a : Answer) :
    ∃ b', (p.answerPublish t a).stage? c = some (.gathering b') ∧ b'.members = b.members ∧
      (p.answerPublish t a).roster c b' = (p.roster c b).leave t := by
  obtain ⟨hparent, k, handle, d, hs⟩ := publishing_of_phaseOf ht
  -- whatever is done before the member ends does not concern the batch
  have ended : ∀ {p' : Publisher} (out : Outcome), Aside c p p' → p'.tasks = p.tasks →
      ∃ b', (p'.finish t out).stage? c = some (.gathering b') ∧ b'.members = b.members ∧
        (p'.finish t out).roster c b' = (p.roster c b).leave t := by
    intro p' out haside htasks
    have hsame := haside.roster b
    have hmember : Member p' c b t (.publishing k handle d) := by
      refine ⟨(parent?_congr htasks t).trans hparent, ?_, (stage?_congr htasks c).trans hc,
        (stage?_congr htasks t).trans hs, ?_, ?_⟩
      · rw [parent?_congr htasks]
        exact h.parents.ne_self c
      · rw [hsame]
        exact fun u hu => (hr.queue u).1 hu
      · rw [hsame]
        intro u hu hwaits
        have hcan := (hr.turns u).1 hu
        rw [hwaits] at hcan
        exact hcan
    rw [← hsame]
    exact hmember.finish (by simp [Stage.phase]) out
  have idle : ∀ r, Aside c p (p.withRegistrar r).wakeIdle := fun r =>
    (aside_withRegistrar r).trans (hapart.congr (tasks_withRegistrar p r)).aside_wakeIdle
  unfold answerPublish
  rw [hs]
  cases a with
  | record record =>
    dsimp only
    split
    · exact ended _ ((idle _).trans (aside_see (by simp))) (by simp)
    · exact ended _ (idle _) (by simp)
  | refused cause => exact ended _ (idle _) (by simp)
  | broken message => exact ended _ (idle _) (by simp)

/-! ## All moves -/

/-- A member has nothing to do with a move of its own that is neither its turn nor the answer to its
call. -/
theorem move_of_isPart (hs : p.stage? t = some s) (hpart : s.IsPart) (hm : m.task? = some t)
    (hturn : m = .run t → t ∉ p.ready)
    (hanswer : ∀ a, m = .answerPublish t a → s.phase ≠ .calling) : p.move m = p := by
  cases m with
  | run u =>
    cases hm
    exact run_of_not_ready (hturn rfl)
  | abandon u =>
    cases hm
    show p.abandon t = p
    unfold abandon
    rw [hs]
    cases s with
    | gathering => exact hpart.elim
    | _ => rfl
  | answerPublish u a =>
    cases hm
    show p.answerPublish t a = p
    unfold answerPublish
    rw [hs]
    cases s with
    | publishing => exact absurd rfl (hanswer a rfl)
    | tryingPublish => exact hpart.elim
    | _ => rfl
  | answerUnpublish u a =>
    cases hm
    show p.answerUnpublish t a = p
    unfold answerUnpublish
    rw [hs]
    cases s with
    | unpublishing | tryingUnpublish => exact hpart.elim
    | _ => rfl
  | _ => cases hm

/-- **The batch of task `c`** is under way, or it has ended. -/
def HasBatch (p : Publisher) (c : Nat) (b : Batch) : Prop :=
  p.stage? c = some (.gathering b) ∨ ∃ out, p.stage? c = some (.ended out)

/-- **A batch itself** ends in its turn when it is complete; nothing that it does concerns its
members. -/
theorem Sound.roster_own (h : p.Sound) (hb : p.HasBatch c b) (hm : m.task? = some c) :
    ∃ b', (p.move m).HasBatch c b' ∧ b'.members = b.members ∧
      (p.move m).roster c b' = p.roster c b := by
  have hroot := h.parents.ne_self c
  have hno : c ∉ (p.roster c b).turns := fun hturn => hroot (mem_turnsOf_iff.1 hturn).2
  have herased := roster_erase p c c b
  rw [List.erase_of_not_mem hno] at herased
  have same : ∀ {q}, q = p → ∃ b', q.HasBatch c b' ∧ b'.members = b.members ∧
      q.roster c b' = p.roster c b := by
    rintro q rfl
    exact ⟨b, hb, rfl, rfl⟩
  rcases hb with hc | ⟨out, hc⟩
  · cases m with
    | run t =>
      cases hm
      show ∃ b', (p.run c).HasBatch c b' ∧ _ ∧ (p.run c).roster c b' = _
      by_cases hready : c ∈ p.ready
      · rw [run_gathering hc hready]
        unfold Publisher.gather
        split
        · refine ⟨b, .inr ⟨_, stage?_setStage_self hc⟩, rfl, ?_⟩
          exact (roster_setStage_other (p := { p with ready := p.ready.erase c }) hroot ..).trans
            herased
        · exact ⟨b, .inl hc, rfl, herased⟩
      · exact same (run_of_not_ready hready)
    | abandon t =>
      cases hm
      refine ⟨{ b with abandoned := true }, ?_⟩
      show (p.abandon c).HasBatch c _ ∧ _ ∧ (p.abandon c).roster c _ = _
      unfold abandon
      rw [hc]
      exact ⟨.inl (stage?_setStage_self hc), rfl, roster_setStage_other hroot ..⟩
    | answerPublish t a =>
      cases hm
      refine same ?_
      show p.answerPublish c a = p
      unfold answerPublish
      rw [hc]
    | answerUnpublish t a =>
      cases hm
      refine same ?_
      show p.answerUnpublish c a = p
      unfold answerUnpublish
      rw [hc]
    | _ => cases hm
  · by_cases hrun : m = .run c ∧ c ∈ p.ready
    · obtain ⟨rfl, hready⟩ := hrun
      refine ⟨b, ?_, rfl, ?_⟩
      · show (p.run c).HasBatch c b
        rw [run_of_ended hc hready]
        exact .inr ⟨out, hc⟩
      · show (p.run c).roster c b = _
        rw [run_of_ended hc hready]
        exact herased
    · exact same (move_of_isPart hc trivial hm (fun he hready => hrun ⟨he, hready⟩)
        fun _ _ => by simp [Stage.phase])

/-- **Every batch that is under way** is sound as a roster, under the limit of the publisher. -/
def Crews (p : Publisher) : Prop := ∀ c b, p.stage? c = some (.gathering b) →
  (p.roster c b).Sound (b.members.map (·.1)) (p.limit.map (max 1))

/-- The members of a batch that has ended have ended. -/
theorem Kin.phaseOf_of_ended (hkin : p.Kin) (hc : p.stage? c = some (.ended out)) (t : Nat) :
    p.phaseOf c t = .ended := by
  have hkept : ∀ t, p.parent? t = some c → ∃ o, p.stage? t = some (.ended o) := hkin c _ hc
  by_cases hparent : p.parent? t = some c
  · obtain ⟨o, ho⟩ := hkept t hparent
    exact phaseOf_member hparent ho
  · exact phaseOf_other hparent

/-- Others stand apart from a batch that has begun. -/
theorem Kin.apart (hkin : p.Kin) (hcrews : p.Crews) (hb : p.HasBatch c b) : Apart c p := by
  refine ⟨?_, fun u hu => ?_, fun c' b' hne hb' u hu hparent => ?_⟩
  · rcases hb with hc | ⟨out, hc⟩ <;> exact ⟨_, hc, trivial⟩
  · rcases hb with hc | ⟨out, hc⟩
    · have hkept : BatchKept p c b := hkin c _ hc
      obtain ⟨s, hs, hmember⟩ := hkept.member u hu
      exact ⟨s, hs, hmember.isPart⟩
    · have hkept : ∀ t, p.parent? t = some c → ∃ o, p.stage? t = some (.ended o) := hkin c _ hc
      obtain ⟨o, ho⟩ := hkept u hu
      exact ⟨_, ho, trivial⟩
  · have hwaits : p.phaseOf c' u = .waiting := ((hcrews c' b' hb').queue u).1 hu
    have hparent' := (queued_of_phaseOf hwaits).1
    rw [hparent] at hparent'
    exact hne (Option.some.inj hparent').symm

/-- In a batch that has ended nothing is due. -/
theorem Kin.not_due (hkin : p.Kin) (hr : (p.roster c b).Sound ts limit)
    (hc : p.stage? c = some (.ended out)) : ¬ (p.roster c b).Due m := by
  intro hdue
  have hended : ∀ t, (p.roster c b).phase t = .ended := hkin.phaseOf_of_ended hc
  cases m with
  | run t => rcases hr.phase_of_turn hdue with hs | hs <;> simp [hended] at hs
  | answerPublish t a =>
    have hs : (p.roster c b).phase t = .calling := hdue
    simp [hended] at hs
  | _ => exact hdue

/-- **A publisher moves as its rosters do**: what a move does to a batch that has begun is a step of
its roster. -/
theorem Sound.roster_move (h : p.Sound) (hkin : p.Kin) (hcrews : p.Crews) (hb : p.HasBatch c b)
    (hr : (p.roster c b).Sound ts limit)
    (hsign : ∀ t s d, p.parent? t = some c → p.stage? t = some s → s.definition? = some d →
      sign t = d.stamp p.registrar.publisher) (m : Move) :
    ∃ b', (p.move m).HasBatch c b' ∧ b'.members = b.members ∧
      (p.roster c b).Step sign m ((p.move m).roster c b') := by
  have hapart := hkin.apart hcrews hb
  by_cases hdue : (p.roster c b).Due m
  · rcases hb with hc | ⟨out, hc⟩
    · cases m with
      | run t =>
        obtain ⟨b', hb', hmembers, hstep⟩ := h.roster_turn hkin hr hc hdue hsign
        exact ⟨b', .inl hb', hmembers, hstep⟩
      | answerPublish t a =>
        obtain ⟨b', hb', hmembers, hleave⟩ := h.roster_answer hapart hr hc hdue a
        refine ⟨b', .inl hb', hmembers, ?_⟩
        rw [show (p.move (.answerPublish t a)).roster c b' = _ from hleave]
        exact .answer t a hdue
      | _ => exact hdue.elim
    · exact absurd hdue (hkin.not_due hr hc)
  · have rest : ∃ b', (p.move m).HasBatch c b' ∧ b'.members = b.members ∧
        (p.move m).roster c b' = p.roster c b := by
      by_cases hother : ∀ t, m.task? = some t → t ≠ c ∧ p.parent? t ≠ some c
      · have haside := hapart.aside_move hother
        refine ⟨b, ?_, rfl, haside.roster b⟩
        unfold HasBatch
        rw [haside.batch]
        exact hb
      · push Not at hother
        obtain ⟨t, ht, hown⟩ := hother
        by_cases htc : t = c
        · exact h.roster_own hb (htc ▸ ht)
        · have hparent := hown htc
          obtain ⟨s, hs, hpart⟩ := hapart.member t hparent
          have hsame : p.move m = p := by
            refine move_of_isPart hs hpart ht ?_ ?_
            · rintro rfl hready
              exact hdue (mem_turnsOf_iff.2 ⟨hready, hparent⟩)
            · rintro a rfl hcalling
              exact hdue ((phaseOf_member hparent hs).trans hcalling)
          rw [hsame]
          exact ⟨b, hb, rfl, rfl⟩
    obtain ⟨b', hb', hmembers, hroster⟩ := rest
    refine ⟨b', hb', hmembers, ?_⟩
    rw [hroster]
    exact .rest m hdue

end Publisher
end SchemaHerald
