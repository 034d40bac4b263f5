import SchemaHerald.Proofs.BatchProgress
import SchemaHerald.Proofs.PublishCourse

/-!
# The turns and calls of a batch

The members of a batch have turns (`Publisher.turnsOf`) and have the registry called
(`Publisher.callsOf`), among the turns and calls of all other tasks. What the others do leaves them
alone: `Aside` says so of two publishers, and `Apart` says who the others are. It is proved along the
definitions, since turns are given and taken in many places; `Apart.aside_move` is the whole of it.
-/
namespace SchemaHerald

namespace Stage

/-- The stages of a batch that has begun. -/
def HasBegun : Stage → Prop
  | .gathering _ | .ended _ => True
  | _ => False

/-- The stages of a member of a batch, however it may have ended. -/
def IsPart : Stage → Prop
  | .asked (.publish ..) | .queued .. | .permitted .. | .publishing .. | .ended _ => True
  | _ => False

theorem IsMember.isPart {s : Stage} (h : s.IsMember) : s.IsPart := by
  cases s with
  | asked request => cases request <;> exact h
  | queued | permitted | publishing | ended => trivial
  | _ => exact h.elim

end Stage

namespace Publisher

variable {p q : Publisher} {c t u : Nat} {s s' : Stage} {b b' : Batch} {o : RegistryOptions}
  {d : Definition} {out : Outcome}

/-- The members of the batch of task `c` that can go on, in the order of their turns. -/
def turnsOf (p : Publisher) (c : Nat) : List Nat := p.ready.filter fun t => p.parent? t == some c

/-- The calls for the members of the batch of task `c`, the first one standing first. -/
def callsOf (p : Publisher) (c : Nat) : List (Nat × Definition) :=
  p.journal.reverse.filterMap fun
    | .publishCall t _ d => if p.parent? t = some c then some (t, d) else none
    | _ => none

theorem mem_turnsOf_iff : t ∈ p.turnsOf c ↔ t ∈ p.ready ∧ p.parent? t = some c := by
  simp [turnsOf]

/-- Turns depend on who is a member and on who can go on. -/
theorem turnsOf_congr (hparent : ∀ u, q.parent? u = some c ↔ p.parent? u = some c)
    (hready : q.ready = p.ready) : q.turnsOf c = p.turnsOf c := by
  unfold turnsOf
  rw [hready]
  exact List.filter_congr fun u _ => by simp only [beq_eq_beq, hparent u]

/-- Calls depend on who is a member and on what could be seen. -/
theorem callsOf_congr (hparent : ∀ u, q.parent? u = some c ↔ p.parent? u = some c)
    (hjournal : q.journal = p.journal) : q.callsOf c = p.callsOf c := by
  unfold callsOf
  rw [hjournal]
  refine List.filterMap_congr fun e _ => ?_
  cases e with
  | publishCall t _ d => simp only [hparent t]
  | _ => rfl

/-- A turn that is taken is taken from those of the members, if it was one of them. -/
theorem turnsOf_erase (p : Publisher) (c t : Nat) :
    ({ p with ready := p.ready.erase t } : Publisher).turnsOf c = (p.turnsOf c).erase t :=
  List.erase_filter.symm

theorem turnsOf_erase_of_ne (ht : p.parent? t ≠ some c) :
    ({ p with ready := p.ready.erase t } : Publisher).turnsOf c = p.turnsOf c := by
  rw [turnsOf_erase]
  exact List.erase_of_not_mem fun hmem => ht (mem_turnsOf_iff.1 hmem).2

theorem turnsOf_wake (p : Publisher) (c : Nat) (us : List Nat) :
    (p.wake us).turnsOf c =
      p.turnsOf c ++ us.filter fun u => p.parent? u == some c && !p.ready.contains u := by
  rw [turnsOf, wake, List.filter_append, List.filter_filter]
  rfl

theorem turnsOf_wake_of_ne {us : List Nat} (hus : ∀ u ∈ us, p.parent? u ≠ some c) :
    (p.wake us).turnsOf c = p.turnsOf c := by
  have hnil : (us.filter fun u => p.parent? u == some c && !p.ready.contains u) = [] :=
    List.filter_eq_nil_iff.2 fun u hu => by simp [hus u hu]
  rw [turnsOf_wake, hnil, List.append_nil]

/-- A member that is woken has its turn after all others. -/
theorem turnsOf_wake_member (hu : p.parent? u = some c) (hnot : u ∉ p.ready) :
    (p.wake [u]).turnsOf c = p.turnsOf c ++ [u] := by
  rw [turnsOf_wake]
  simp [hu, hnot]

/-! ## Moves of others -/

/-- **The members of the batch of task `c` are left alone**, and so is the batch. -/
structure Aside (c : Nat) (p q : Publisher) : Prop where
  parent : ∀ u, q.parent? u = some c ↔ p.parent? u = some c
  batch : q.stage? c = p.stage? c
  stage : ∀ u, p.parent? u = some c → q.stage? u = p.stage? u
  turns : q.turnsOf c = p.turnsOf c
  calls : q.callsOf c = p.callsOf c

theorem Aside.refl (c : Nat) (p : Publisher) : Aside c p p :=
  ⟨fun _ => .rfl, rfl, fun _ _ => rfl, rfl, rfl⟩

theorem Aside.trans {r : Publisher} (h : Aside c p q) (h' : Aside c q r) : Aside c p r where
  parent u := (h'.parent u).trans (h.parent u)
  batch := h'.batch.trans h.batch
  stage u hu := (h'.stage u ((h.parent u).2 hu)).trans (h.stage u hu)
  turns := h'.turns.trans h.turns
  calls := h'.calls.trans h.calls

/-- Where nothing but turns differs. -/
theorem Aside.of_turns (htasks : q.tasks = p.tasks) (hjournal : q.journal = p.journal)
    (hturns : q.turnsOf c = p.turnsOf c) : Aside c p q :=
  have hparent : ∀ u, q.parent? u = some c ↔ p.parent? u = some c := fun u => by
    rw [parent?_congr htasks]
  ⟨hparent, stage?_congr htasks c, fun u _ => stage?_congr htasks u, hturns,
    callsOf_congr hparent hjournal⟩

theorem Aside.of_tasks (htasks : q.tasks = p.tasks) (hready : q.ready = p.ready)
    (hjournal : q.journal = p.journal) : Aside c p q :=
  .of_turns htasks hjournal (turnsOf_congr (fun u => by rw [parent?_congr htasks]) hready)

/-- **Who stands apart from the batch of task `c`**, which has begun: the members of the batch publish
or have ended, and none of them waits for a permit of another batch. -/
structure Apart (c : Nat) (p : Publisher) : Prop where
  begun : ∃ s, p.stage? c = some s ∧ s.HasBegun
  member : ∀ u, p.parent? u = some c → ∃ s, p.stage? u = some s ∧ s.IsPart
  queue : ∀ c' b, c' ≠ c → p.stage? c' = some (.gathering b) → ∀ u ∈ b.queue, p.parent? u ≠ some c

theorem Apart.congr (h : Apart c p) (htasks : q.tasks = p.tasks) : Apart c q where
  begun := by
    rw [stage?_congr htasks]
    exact h.begun
  member u hu := by
    rw [parent?_congr htasks] at hu
    rw [stage?_congr htasks]
    exact h.member u hu
  queue c' b hne hb u hu := by
    rw [stage?_congr htasks] at hb
    rw [parent?_congr htasks]
    exact h.queue c' b hne hb u hu

theorem Apart.lt_length (h : Apart c p) : c < p.tasks.length := by
  obtain ⟨s, hs, -⟩ := h.begun
  exact lt_length_of_stage? hs

/-- A task that stands where no member stands is none. -/
theorem Apart.not_member (h : Apart c p) (hs : p.stage? t = some s) (hnot : ¬ s.IsPart) :
    p.parent? t ≠ some c := fun ht => by
  obtain ⟨s', hs', hpart⟩ := h.member t ht
  cases hs.symm.trans hs'
  exact hnot hpart

/-- A task that stands where no batch stands that has begun is not the one of the batch. -/
theorem Apart.ne (h : Apart c p) (hs : p.stage? t = some s) (hnot : ¬ s.HasBegun) : t ≠ c := by
  rintro rfl
  obtain ⟨s', hs', hbegun⟩ := h.begun
  cases hs.symm.trans hs'
  exact hnot hbegun

/-- Another task comes to a stage, where it has nobody wait for a permit who did not before. -/
theorem Apart.setStage (h : Apart c p) (ht : p.parent? t ≠ some c) (htc : t ≠ c)
    (hs : ∀ b, s = .gathering b → ∀ u ∈ b.queue, p.parent? u ≠ some c) :
    Apart c (p.setStage t s) where
  begun := by
    rw [stage?_setStage_of_ne htc.symm]
    exact h.begun
  member u hu := by
    rw [parent?_setStage] at hu
    have hut : u ≠ t := fun he => ht (he ▸ hu)
    rw [stage?_setStage_of_ne hut]
    exact h.member u hu
  queue c' b hne hb u hu := by
    rw [parent?_setStage]
    by_cases hct : c' = t
    · subst hct
      obtain ⟨s', hs'⟩ := exists_stage? (by simpa using lt_length_of_stage? hb)
      cases (stage?_setStage_self hs').symm.trans hb
      exact hs b rfl u hu
    · rw [stage?_setStage_of_ne hct] at hb
      exact h.queue c' b hne hb u hu

section Others
variable (ht : p.parent? t ≠ some c) (htc : t ≠ c)
include ht htc

theorem aside_setStage (s : Stage) : Aside c p (p.setStage t s) where
  parent u := by rw [parent?_setStage]
  batch := stage?_setStage_of_ne htc.symm
  stage u hu :=
    have hut : u ≠ t := fun he => ht (he ▸ hu)
    stage?_setStage_of_ne hut
  turns := turnsOf_congr (fun u => by rw [parent?_setStage]) rfl
  calls := callsOf_congr (fun u => by rw [parent?_setStage]) rfl

end Others

theorem aside_wake {us : List Nat} (hus : ∀ u ∈ us, p.parent? u ≠ some c) : Aside c p (p.wake us) :=
  .of_turns rfl rfl (turnsOf_wake_of_ne hus)

/-- Another task keeps its turn. -/
theorem aside_turn (ht : p.parent? t ≠ some c) : Aside c p { p with ready := t :: p.ready } := by
  refine .of_turns rfl rfl (List.filter_cons_of_neg ?_)
  show ¬ (p.parent? t == some c) = true
  simpa using ht

theorem aside_withRegistrar (r : Registrar) : Aside c p (p.withRegistrar r) := .of_tasks rfl rfl rfl

/-- What is seen is no call for a member. -/
theorem aside_see {e : Entry} (he : ∀ t h d, e = .publishCall t h d → p.parent? t ≠ some c) :
    Aside c p (p.see e) := by
  refine ⟨fun _ => .rfl, rfl, fun _ _ => rfl, rfl, ?_⟩
  unfold callsOf
  rw [journal_see, List.reverse_cons, List.filterMap_append]
  cases e with
  | publishCall t h d => simp [parent?_congr (tasks_see p _), he t h d rfl]
  | _ => simp [parent?_congr (tasks_see p _)]

theorem Apart.aside_wakeIdle (h : Apart c p) : Aside c p p.wakeIdle := by
  unfold wakeIdle
  split
  · refine aside_wake fun u hu => ?_
    obtain ⟨s, hs, hwaits⟩ := (Option.any_eq_true _ _).1 (List.mem_filter.1 hu).2
    refine h.not_member hs fun hpart => ?_
    cases s with
    | waiting => exact hpart
    | _ => cases hwaits
  · exact .refl c p

theorem aside_withdraw (g : Registration) : Aside c p (p.withdraw g) := by
  unfold withdraw
  split
  · exact .refl c p
  · dsimp only
    split
    · have hnoted : Aside c p { p with withdrawn := g.serial :: p.withdrawn } := .of_tasks rfl rfl rfl
      exact hnoted.trans (aside_see (by simp))
    · exact .of_tasks rfl rfl rfl

/-- New tasks are no members. -/
theorem aside_append {ts : List Task} (hts : ∀ task ∈ ts, task.parent ≠ some c)
    (hc : c < p.tasks.length) (htasks : q.tasks = p.tasks ++ ts) (hready : q.ready = p.ready)
    (hjournal : q.journal = p.journal) : Aside c p q := by
  have hparent : ∀ u, q.parent? u = some c ↔ p.parent? u = some c := by
    intro u
    rw [parent?_append htasks]
    split
    · rfl
    · rename_i hge
      have hnone : p.parent? u = none := by simp [parent?, Nat.not_lt.1 hge]
      rw [hnone]
      refine iff_of_false (fun hu => ?_) (by simp)
      obtain ⟨task, htask, hp⟩ := Option.bind_eq_some_iff.1 hu
      exact hts task (List.mem_of_getElem? htask) hp
  refine ⟨hparent, ?_, fun u hu => ?_, turnsOf_congr hparent hready, callsOf_congr hparent hjournal⟩
  · rw [stage?_append htasks, if_pos hc]
  · have hlt : u < p.tasks.length := by
      by_contra hge
      simp [parent?, Nat.not_lt.1 hge] at hu
    rw [stage?_append htasks, if_pos hlt]

/-! ### The moves of the other tasks, one definition after the other -/

/-- The permit of a member of another batch goes to a member of that one. -/
theorem Apart.aside_releasePermit (h : Apart c p) (ht : p.parent? t ≠ some c) (htc : t ≠ c)
    (hqueue : ∀ u ∈ b.queue, p.parent? u ≠ some c) : Aside c p (p.releasePermit t b) := by
  unfold releasePermit
  split
  · rename_i next queue hq
    have hnext : p.parent? next ≠ some c := hqueue next (by simp [hq])
    have hbatch := aside_setStage ht htc (.gathering { b with queue })
    have hapart : Apart c (p.setStage t (.gathering { b with queue })) :=
      h.setStage ht htc fun b' he u hu => by
        cases he
        exact hqueue u (hq ▸ List.mem_cons_of_mem _ hu)
    dsimp only
    split
    · rename_i o d hs
      have hnext' := (parent?_setStage p t (.gathering { b with queue }) next) ▸ hnext
      refine (hbatch.trans (aside_setStage hnext' (hapart.ne hs id) _)).trans (aside_wake ?_)
      simpa using hnext
    · exact hbatch
  · exact aside_setStage ht htc _

theorem Apart.aside_deliver (h : Apart c p) (htc : t ≠ c) (u : Nat) (out : Outcome) :
    Aside c p (p.deliver t u out) := by
  unfold deliver
  split
  · rename_i b hb
    have ht := h.not_member hb id
    have hreleased := h.aside_releasePermit (b := { b with outcomes := b.outcomes ++ [(u, out)] }) ht
      htc (h.queue t b htc hb)
    refine hreleased.trans (aside_wake fun v hv => ?_)
    rw [List.mem_singleton.1 hv, ne_eq, hreleased.parent]
    exact ht
  · rename_i d hd
    have ht := h.not_member hd id
    have hnoted := aside_setStage ht htc (.draining (d.note u out))
    unfold endDrain
    split
    · split
      · refine (hnoted.trans (aside_withRegistrar _)).trans (aside_setStage ?_ htc _)
        rw [parent?_congr (tasks_withRegistrar ..), parent?_setStage]
        exact ht
      · exact hnoted
    · exact hnoted
  · exact .refl c p

/-- **The end of another task.** -/
theorem Apart.aside_finish (h : Apart c p) (ht : p.parent? t ≠ some c) (htc : t ≠ c) (out : Outcome) :
    Aside c p (p.finish t out) := by
  have hended := aside_setStage ht htc (.ended out)
  unfold finish
  split
  · rename_i w hw
    have hwc : w ≠ c := fun he => ht (he ▸ hw)
    have hapart := h.setStage (s := .ended out) ht htc fun b he => by cases he
    exact hended.trans (hapart.aside_deliver hwc t out)
  · exact hended

theorem Apart.aside_beginPublish (h : Apart c p) (ht : p.parent? t ≠ some c) (htc : t ≠ c)
    (o : RegistryOptions) (d : Definition) : Aside c p (p.beginPublish t o d) := by
  unfold beginPublish
  split
  · exact h.aside_finish ht htc _
  · split
    · exact h.aside_finish ht htc _
    · split
      · exact h.aside_finish ht htc _
      · refine ((aside_withRegistrar _).trans (aside_setStage ?_ htc _)).trans (aside_see ?_)
        · exact ht
        · rintro t' h' d' he
          cases he
          rw [parent?_setStage]
          exact ht

theorem Apart.aside_beginMember (h : Apart c p) (ht : p.parent? t ≠ some c) (htc : t ≠ c) {w : Nat}
    (hw : p.parent? t = some w) (o : RegistryOptions) (d : Definition) :
    Aside c p (p.beginMember t w o d) := by
  have hwc : w ≠ c := fun he => ht (he ▸ hw)
  unfold beginMember
  split
  · rename_i b hb
    have hno := h.not_member hb id
    split
    · have hqueued := aside_setStage hno hwc (.gathering { b with queue := b.queue ++ [t] })
      exact hqueued.trans (aside_setStage (by rwa [parent?_setStage]) htc _)
    · rename_i n hn
      have hgranted := aside_setStage hno hwc (.gathering { b with permits := some n })
      have hapart : Apart c (p.setStage w (.gathering { b with permits := some n })) :=
        h.setStage hno hwc fun b' he u hu => by
          cases he
          exact h.queue w b hwc hb u hu
      exact hgranted.trans (hapart.aside_beginPublish (by rwa [parent?_setStage]) htc o d)
    · exact h.aside_beginPublish ht htc o d
  · exact h.aside_beginPublish ht htc o d

theorem Apart.aside_beginBatch (h : Apart c p) (ht : p.parent? t ≠ some c) (htc : t ≠ c)
    (o : RegistryOptions) (ds : List Definition) :
    Aside c p (p.beginBatch t o ds) := by
  unfold beginBatch
  split
  · exact h.aside_finish ht htc _
  · split
    · exact h.aside_finish ht htc _
    · rename_i o' ho
      dsimp only
      split
      · exact h.aside_finish ht htc _
      · have hgrown : Aside c p { p with tasks := p.tasks ++ memberTasks t o' ds } := by
          refine aside_append (fun task htask => ?_) h.lt_length rfl rfl rfl
          obtain ⟨d, -, rfl⟩ := List.mem_map.1 htask
          simpa using htc
        have ht' : ({ p with tasks := p.tasks ++ memberTasks t o' ds } : Publisher).parent? t ≠
            some c := by rwa [ne_eq, hgrown.parent]
        refine (hgrown.trans (aside_setStage ht' htc _)).trans (aside_wake fun u hu => ?_)
        have hge := (List.mem_range'_1.1 hu).1
        rw [parent?_setStage, ne_eq, hgrown.parent, parent?, List.getElem?_eq_none hge]
        simp

theorem Apart.aside_tearDown (h : Apart c p) (ht : p.parent? t ≠ some c) (htc : t ≠ c)
    (td : SchemaHerald.Teardown) : Aside c p (p.tearDown t td) := by
  have released : ∀ (r : Registrar) out, Aside c p ((p.withRegistrar r).finish t out) := fun r out =>
    have hapart : Apart c (p.withRegistrar r) := h.congr rfl
    (aside_withRegistrar r).trans (hapart.aside_finish ht htc out)
  unfold tearDown
  split
  · unfold beginDrain
    cases td with
    | sweeping failing unregisters => exact released _ _
    | unpublishing =>
      dsimp only
      split
      · exact released _ _
      · have hturn : Aside c p { p with ready := t :: p.ready } :=
          aside_turn ht
        exact hturn.trans (aside_setStage (p := { p with ready := t :: p.ready }) ht htc _)
  · exact aside_setStage ht htc _

theorem Apart.aside_drainNext (h : Apart c p) (ht : p.parent? t ≠ some c) (htc : t ≠ c) (d : Drain) :
    Aside c p (p.drainNext t d) := by
  unfold drainNext
  split
  · exact .refl c p
  · rename_i g rest hrest
    dsimp only
    have hgrown : Aside c p
        { p with tasks := p.tasks ++ [{ stage := .unpublishing g, parent := some t }] } :=
      aside_append (by simpa using htc) h.lt_length rfl rfl rfl
    have hturn : Aside c p { p with
        tasks := p.tasks ++ [{ stage := .unpublishing g, parent := some t }]
        ready := if rest.isEmpty then p.ready else t :: p.ready } := by
      refine hgrown.trans ?_
      split
      · exact .refl c _
      · exact aside_turn (by rwa [ne_eq, hgrown.parent])
    refine (hturn.trans (aside_setStage (by rwa [ne_eq, hturn.parent]) htc _)).trans (aside_see ?_)
    exact fun _ _ _ he => nomatch he

theorem Apart.aside_beginClose (h : Apart c p) (ht : p.parent? t ≠ some c) (htc : t ≠ c)
    (td : SchemaHerald.Teardown) : Aside c p (p.beginClose t td) := by
  unfold beginClose
  split
  · exact h.aside_finish ht htc _
  · have hapart : Apart c (p.withRegistrar p.registrar.close) := h.congr rfl
    exact (aside_withRegistrar _).trans (hapart.aside_tearDown ht htc td)

theorem Apart.aside_begin (h : Apart c p) (htc : t ≠ c) {parent : Option Nat}
    (hparent : p.parent? t = parent) (ht : parent ≠ some c) (request : Request) :
    Aside c p (p.begin t parent request) := by
  have ht' : p.parent? t ≠ some c := hparent ▸ ht
  cases request with
  | publish o d =>
    cases parent with
    | none => exact h.aside_beginPublish ht' htc o d
    | some w => exact h.aside_beginMember ht' htc hparent o d
  | publishAll o ds => exact h.aside_beginBatch ht' htc o ds
  | unpublish g => exact (aside_setStage ht' htc _).trans (aside_see fun _ _ _ he => nomatch he)
  | close td => exact h.aside_beginClose ht' htc td
  | tryPublish g d =>
    refine (aside_setStage ht' htc _).trans (aside_see ?_)
    rintro t' g' d' he
    cases he
    rwa [parent?_setStage]
  | tryUnpublish g => exact (aside_setStage ht' htc _).trans (aside_see fun _ _ _ he => nomatch he)

/-- **The turn of another task.** -/
theorem Apart.aside_run (h : Apart c p) (ht : p.parent? t ≠ some c) (htc : t ≠ c) :
    Aside c p (p.run t) := by
  unfold run
  split
  · have hturn : Aside c p { p with ready := p.ready.erase t } :=
      .of_turns rfl rfl (turnsOf_erase_of_ne ht)
    have hapart : Apart c { p with ready := p.ready.erase t } := h.congr rfl
    refine hturn.trans ?_
    dsimp only
    split
    · rename_i request parent htask
      have hparent : p.parent? t = parent := by simp [parent?, htask]
      exact hapart.aside_begin htc hparent (hparent ▸ ht) request
    · exact hapart.aside_beginPublish ht htc _ _
    · unfold gather
      split
      · exact aside_setStage (p := { p with ready := p.ready.erase t }) ht htc _
      · exact .refl c _
    · exact hapart.aside_tearDown ht htc _
    · exact hapart.aside_drainNext ht htc _
    · exact .refl c _
  · exact .refl c p

theorem Apart.aside_answerPublish (h : Apart c p) (ht : p.parent? t ≠ some c) (htc : t ≠ c)
    (a : Answer) : Aside c p (p.answerPublish t a) := by
  have settled : ∀ r out, Aside c p ((p.withRegistrar r).wakeIdle.finish t out) := fun r out => by
    have hapart : Apart c (p.withRegistrar r) := h.congr rfl
    have hidle := (aside_withRegistrar r).trans hapart.aside_wakeIdle
    exact hidle.trans ((h.congr (by simp)).aside_finish (by rwa [ne_eq, hidle.parent]) htc out)
  unfold answerPublish
  split
  · rename_i k g d hs
    cases a with
    | record record =>
      dsimp only
      split
      · have hapart : Apart c (p.withRegistrar (p.registrar.register k record g p.listening).2) :=
          h.congr rfl
        have hidle := (aside_withRegistrar _).trans hapart.aside_wakeIdle
        refine (hidle.trans (aside_see (by simp))).trans
          (Apart.aside_finish (h.congr (by simp)) ?_ htc _)
        rw [parent?_congr (tasks_see ..), ne_eq, hidle.parent]
        exact ht
      · exact settled _ _
    | refused cause => exact settled _ _
    | broken message => exact settled _ _
  · cases a <;> exact h.aside_finish ht htc _
  · exact .refl c p

theorem Apart.aside_answerUnpublish (h : Apart c p) (ht : p.parent? t ≠ some c) (htc : t ≠ c)
    (a : Except Cause Unit) : Aside c p (p.answerUnpublish t a) := by
  unfold answerUnpublish
  split
  · rename_i g hs
    cases a with
    | ok _ =>
      have hremoved := (aside_withRegistrar (p.registrar.unregister g)).trans
        (aside_withdraw (c := c) (p := p.withRegistrar (p.registrar.unregister g)) g)
      exact hremoved.trans
        (Apart.aside_finish (h.congr (by simp)) (by rwa [ne_eq, hremoved.parent]) htc _)
    | error cause => exact h.aside_finish ht htc _
  · cases a <;> exact h.aside_finish ht htc _
  · exact .refl c p

/-- **Who asks for something** does not concern a batch that has begun. -/
theorem Apart.aside_ask (h : Apart c p) (request : Request) : Aside c p (p.ask request) := by
  have hgrown : Aside c p { p with tasks := p.tasks ++ [{ stage := .asked request }] } :=
    aside_append (by simp) h.lt_length rfl rfl rfl
  refine hgrown.trans (aside_wake fun u hu => ?_)
  rw [List.mem_singleton.1 hu, ne_eq, hgrown.parent, parent?, List.getElem?_eq_none le_rfl]
  simp

/-- **Direct uses of the registrar** do not concern a batch. -/
theorem Apart.aside_direct (h : Apart c p) {m : Move} (hm : m.isDirect = true) :
    Aside c p (p.move m) := by
  have idle : ∀ {q : Publisher}, q.tasks = p.tasks → q.ready = p.ready → q.journal = p.journal →
      Aside c p q.wakeIdle := fun htasks hready hjournal =>
    (Aside.of_tasks htasks hready hjournal).trans (h.congr htasks).aside_wakeIdle
  cases m with
  | reserve registry schema =>
    simp only [move, Publisher.reserve]
    cases p.registrar.reserve registry schema
    · exact .refl c p
    · exact .of_tasks rfl rfl rfl
  | drop k =>
    simp only [move, drop]
    split
    · exact idle rfl rfl rfl
    · exact .refl c p
  | register k record handle =>
    simp only [move]
    split
    · rename_i q hq
      simp only [register] at hq
      split at hq
      · cases hq
        exact idle rfl rfl rfl
      · cases hq
    · exact .refl c p
  | unregister | newHandle | handleFor => exact .of_tasks rfl rfl rfl
  | ask | abandon | run | answerPublish | answerUnpublish => cases hm

/-- **Moves of other tasks leave the members of a batch alone.** -/
theorem Apart.aside_move (h : Apart c p) {m : Move}
    (hm : ∀ t, m.task? = some t → t ≠ c ∧ p.parent? t ≠ some c) : Aside c p (p.move m) := by
  cases m with
  | ask request => exact h.aside_ask request
  | abandon t =>
    obtain ⟨htc, ht⟩ := hm t rfl
    show Aside c p (p.abandon t)
    unfold abandon
    split
    · exact aside_setStage ht htc _
    · exact .refl c p
  | run t => exact h.aside_run (hm t rfl).2 (hm t rfl).1
  | answerPublish t a => exact h.aside_answerPublish (hm t rfl).2 (hm t rfl).1 a
  | answerUnpublish t a => exact h.aside_answerUnpublish (hm t rfl).2 (hm t rfl).1 a
  | reserve | drop | register | unregister | newHandle | handleFor => exact h.aside_direct rfl

end Publisher
end SchemaHerald
