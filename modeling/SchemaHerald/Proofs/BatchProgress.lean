import Mathlib.Algebra.GroupWithZero.Nat
import SchemaHerald.Proofs.Kinship

/-!
# A batch comes to an end

`Crewed` says of a batch that is under way what keeps it going: a member that has not begun or was given
a permit has a turn, one that waits for a permit stands in the queue, nobody waits while there are
permits, somebody has one when there are none, and the batch has a turn when it is complete. So there
is always something that can happen (`Crewed.busy`): a turn, or the answer to a call.

`effort` bounds how much can happen. It falls with each turn that is taken and with each answer, since a
permit that comes back and the turn of the batch are paid for by the member that ends
(`Crewed.run`, `Crewed.answer`, `Crewed.gather`).
-/
namespace SchemaHerald

namespace Stage

/-- The stages at which a publish can go on in its turn. -/
def CanGoOn : Stage → Prop
  | .asked _ | .permitted .. => True
  | _ => False

/-- The stages at which a member of a batch has a permit, if it needs one. -/
def Works : Stage → Prop
  | .permitted .. | .publishing .. => True
  | _ => False

/-- How much may still happen to a member of a batch, and by its end. -/
def effort : Stage → Nat
  | .asked _ | .queued .. => 3
  | .permitted .. | .publishing .. => 2
  | _ => 0

theorem Works.effort {s : Stage} (h : s.Works) : s.effort = 2 := by
  cases s with
  | permitted | publishing => rfl
  | _ => exact h.elim

end Stage

namespace Publisher

variable {p q : Publisher} {c t u : Nat} {ts : List Nat} {s s' : Stage} {b b' : Batch} {o : Outcome}
  {active : Option Nat}

/-! ## Turns -/

theorem mem_ready_wake {us : List Nat} : u ∈ (p.wake us).ready ↔ u ∈ p.ready ∨ u ∈ us := by
  simp only [wake, List.mem_append, List.mem_filter, Bool.not_eq_true', List.contains_eq_mem,
    decide_eq_false_iff_not]
  tauto

theorem length_ready_wake_le (p : Publisher) (us : List Nat) :
    (p.wake us).ready.length ≤ p.ready.length + us.length := by
  rw [wake, List.length_append]
  exact Nat.add_le_add_left (List.length_filter_le _ _) _

/-- While the registrar is open nobody waits until nothing is reserved. -/
theorem Sound.wakeIdle_of_open (hp : p.Sound) (hopen : p.registrar.closed = false)
    (htasks : q.tasks = p.tasks) : q.wakeIdle = q := by
  have hnone : q.waiters = [] := by
    refine List.filter_eq_nil_iff.2 fun u _ hwaits => ?_
    rw [stage?_congr htasks] at hwaits
    obtain ⟨s, hs, hwaiting⟩ := (Option.any_eq_true _ _).1 hwaits
    cases s with
    | waiting td =>
      have hclosed : p.registrar.closed = true := hp.fits u _ hs
      rw [hopen] at hclosed
      cases hclosed
    | _ => cases hwaiting
  unfold wakeIdle
  rw [hnone]
  split
  · simp [wake]
  · rfl

/-! ## What may still happen -/

/-- How much may still happen to tasks, and by turns that there are. -/
def effort (p : Publisher) (ts : List Nat) : Nat :=
  (ts.map fun t => ((p.stage? t).map Stage.effort).getD 0).sum + p.ready.length

/-- If all of them stay where they are, only the turns matter. -/
theorem effort_of_stages (h : ∀ t ∈ ts, q.stage? t = p.stage? t) :
    q.effort ts + p.ready.length = p.effort ts + q.ready.length := by
  have hsame : (ts.map fun t => ((q.stage? t).map Stage.effort).getD 0) =
      ts.map fun t => ((p.stage? t).map Stage.effort).getD 0 :=
    List.map_congr_left fun t ht => by rw [h t ht]
  unfold effort
  rw [hsame]
  omega

/-- A turn that is taken is gone. -/
theorem effort_turn (hready : t ∈ p.ready) (hq : q.ready = p.ready.erase t)
    (h : ∀ t ∈ ts, q.stage? t = p.stage? t) : q.effort ts + 1 ≤ p.effort ts := by
  have hpos := List.length_pos_of_mem hready
  have hsame := effort_of_stages h
  rw [hq, List.length_erase_of_mem hready] at hsame
  omega

/-- **One member of a batch moves on**, and its batch with it. -/
structure Moved (p q : Publisher) (c : Nat) (ts : List Nat) (t : Nat) (s s' : Stage) (b' : Batch) :
    Prop where
  parent : ∀ u, q.parent? u = p.parent? u
  batch : q.stage? c = some (.gathering b')
  before : p.stage? t = some s
  after : q.stage? t = some s'
  others : ∀ u ∈ ts, u ≠ t → q.stage? u = p.stage? u

theorem Moved.effort (h : Moved p q c ts t s s' b') (hnodup : ts.Nodup) (ht : t ∈ ts) :
    q.effort ts + s.effort + p.ready.length = p.effort ts + s'.effort + q.ready.length := by
  unfold Publisher.effort
  suffices hsum : (ts.map fun u => ((q.stage? u).map Stage.effort).getD 0).sum + s.effort =
      (ts.map fun u => ((p.stage? u).map Stage.effort).getD 0).sum + s'.effort by omega
  have hothers := h.others
  induction ts with
  | nil => cases ht
  | cons u ts ih =>
    obtain ⟨hnot, hnodup⟩ := List.nodup_cons.1 hnodup
    rw [List.map_cons, List.map_cons, List.sum_cons, List.sum_cons]
    by_cases hut : u = t
    · -- the others add up to the same
      subst hut
      have hsame : (ts.map fun u => ((q.stage? u).map Stage.effort).getD 0) =
          ts.map fun u => ((p.stage? u).map Stage.effort).getD 0 :=
        List.map_congr_left fun v hv => by
          rw [hothers v (List.mem_cons_of_mem _ hv) fun he => hnot (he ▸ hv)]
      rw [hsame, h.before, h.after, Option.map_some, Option.map_some, Option.getD_some,
        Option.getD_some]
      omega
    · have hsame := hothers u List.mem_cons_self hut
      have htail := ih ⟨h.parent, h.batch, h.before, h.after,
        fun v hv => hothers v (List.mem_cons_of_mem _ hv)⟩ hnodup
        ((List.mem_cons.1 ht).resolve_left (Ne.symm hut))
        fun v hv => hothers v (List.mem_cons_of_mem _ hv)
      rw [hsame]
      omega

/-- Both at once: a member and its batch. -/
theorem moved_setStage_setStage (hc : p.stage? c = some s) {s₀ : Stage} (ht : p.stage? t = some s₀)
    (hne : t ≠ c) (hnot : c ∉ ts) (s' : Stage) (b' : Batch) :
    Moved p ((p.setStage c (.gathering b')).setStage t s') c ts t s₀ s' b' where
  parent u := by rw [parent?_setStage, parent?_setStage]
  batch := (stage?_setStage_of_ne hne.symm).trans (stage?_setStage_self hc)
  before := ht
  after := stage?_setStage_self ((stage?_setStage_of_ne hne).trans ht)
  others u hu hut := by
    have huc : u ≠ c := fun he => hnot (he ▸ hu)
    rw [stage?_setStage_of_ne hut, stage?_setStage_of_ne huc]

/-- A member alone. -/
theorem moved_setStage (hc : p.stage? c = some (.gathering b)) (ht : p.stage? t = some s)
    (hne : t ≠ c) (s' : Stage) : Moved p (p.setStage t s') c ts t s s' b where
  parent u := parent?_setStage p t s' u
  batch := (stage?_setStage_of_ne hne.symm).trans hc
  before := ht
  after := stage?_setStage_self ht
  others _ _ hut := stage?_setStage_of_ne hut

theorem Moved.congr {q' : Publisher} (h : Moved p q c ts t s s' b') (htasks : q'.tasks = q.tasks) :
    Moved p q' c ts t s s' b' where
  parent u := (parent?_congr htasks u).trans (h.parent u)
  batch := (stage?_congr htasks c).trans h.batch
  before := h.before
  after := (stage?_congr htasks t).trans h.after
  others u hu hut := (stage?_congr htasks u).trans (h.others u hu hut)

/-! ## Batches at work -/

/-- **The batch of task `c`, with the members `ts`, goes on.** If there is an active member, its turn
has just come. -/
structure Crewed (p : Publisher) (c : Nat) (ts : List Nat) (b : Batch) (active : Option Nat) :
    Prop where
  nodup : ts.Nodup
  apart : c ∉ ts
  children : ∀ t ∈ ts, p.parent? t = some c
  gathering : p.stage? c = some (.gathering b)
  present : b.abandoned = false
  goesOn : ∀ t ∈ ts, ∀ s, p.stage? t = some s → s.CanGoOn → t ∈ p.ready ∨ active = some t
  queued : ∀ t ∈ ts, ∀ o d, p.stage? t = some (.queued o d) → t ∈ b.queue
  queue : ∀ t ∈ b.queue, t ∈ ts ∧ ∃ o d, p.stage? t = some (.queued o d)
  once : b.queue.Nodup
  /-- Nobody waits while there are permits. -/
  starved : b.queue ≠ [] → b.permits = some 0
  /-- When there are no permits, somebody has one. -/
  works : b.permits = some 0 → ∃ t ∈ ts, ∃ s, p.stage? t = some s ∧ s.Works
  complete : b.isComplete = true → c ∈ p.ready

theorem Crewed.congr (h : Crewed p c ts b active) (htasks : q.tasks = p.tasks)
    (hready : q.ready = p.ready) : Crewed q c ts b active := by
  refine ⟨h.nodup, h.apart, fun t ht => (parent?_congr htasks t).trans (h.children t ht),
    (stage?_congr htasks c).trans h.gathering, h.present, fun t ht s hs => ?_, fun t ht o d hs => ?_,
    fun t ht => ?_, h.once, h.starved, fun h0 => ?_, fun hb => ?_⟩
  · rw [stage?_congr htasks] at hs
    rw [hready]
    exact h.goesOn t ht s hs
  · rw [stage?_congr htasks] at hs
    exact h.queued t ht o d hs
  · rw [stage?_congr htasks]
    exact h.queue t ht
  · obtain ⟨t, ht, s, hs, hworks⟩ := h.works h0
    exact ⟨t, ht, s, (stage?_congr htasks t).trans hs, hworks⟩
  · rw [hready]
    exact h.complete hb

theorem Crewed.ne (h : Crewed p c ts b active) (ht : p.stage? t = some s)
    (hs : ∀ b, s ≠ .gathering b) : t ≠ c := fun he => by
  rw [he, h.gathering] at ht
  exact hs b (Option.some.inj ht).symm

/-- **When one member moves on** the batch goes on, if its queue and its permits are as they should
be. -/
theorem Crewed.moved {active' : Option Nat} (h : Crewed p c ts b active)
    (hmoved : Moved p q c ts t s s' b') (hready : ∀ u ∈ p.ready, u ∈ q.ready)
    (hpresent : b'.abandoned = false) (hactive : ∀ u, active = some u → u = t ∨ active' = some u)
    (hgoesOn : s'.CanGoOn → t ∈ q.ready ∨ active' = some t)
    (hqueue : ∀ u, u ∈ b'.queue ↔ (u ∈ b.queue ∧ u ≠ t) ∨ (u = t ∧ t ∈ ts ∧ ∃ o d, s' = .queued o d))
    (honce : b'.queue.Nodup) (hstarved : b'.queue ≠ [] → b'.permits = some 0)
    (hworks : b'.permits = some 0 →
      (t ∈ ts ∧ s'.Works) ∨ ∃ u ∈ ts, u ≠ t ∧ ∃ s, p.stage? u = some s ∧ s.Works)
    (hcomplete : b'.isComplete = true → c ∈ q.ready) : Crewed q c ts b' active' := by
  refine ⟨h.nodup, h.apart, fun u hu => (hmoved.parent u).trans (h.children u hu), hmoved.batch, hpresent,
    fun u hu s₁ hs₁ hcan => ?_, fun u hu o d hs₁ => ?_, fun u hu => ?_, honce, hstarved,
    fun h0 => ?_, hcomplete⟩
  · by_cases hut : u = t
    · subst hut
      cases hmoved.after.symm.trans hs₁
      exact hgoesOn hcan
    · rw [hmoved.others u hu hut] at hs₁
      rcases h.goesOn u hu s₁ hs₁ hcan with hin | hactive'
      · exact .inl (hready u hin)
      · exact .inr ((hactive u hactive').resolve_left hut)
  · rw [hqueue]
    by_cases hut : u = t
    · subst hut
      cases hmoved.after.symm.trans hs₁
      exact .inr ⟨rfl, hu, o, d, rfl⟩
    · rw [hmoved.others u hu hut] at hs₁
      exact .inl ⟨h.queued u hu o d hs₁, hut⟩
  · rcases (hqueue u).1 hu with ⟨hin, hut⟩ | ⟨rfl, hmem, o, d, rfl⟩
    · obtain ⟨hmem, o, d, hs₁⟩ := h.queue u hin
      exact ⟨hmem, o, d, (hmoved.others u hmem hut).trans hs₁⟩
    · exact ⟨hmem, o, d, hmoved.after⟩
  · rcases hworks h0 with ⟨hmem, hw⟩ | ⟨u, hmem, hut, s₁, hs₁, hw⟩
    · exact ⟨t, hmem, s', hmoved.after, hw⟩
    · exact ⟨u, hmem, s₁, (hmoved.others u hmem hut).trans hs₁, hw⟩

/-- Only a task that waits for a permit stands in the queue. -/
theorem Crewed.not_queued (h : Crewed p c ts b active) (hs : p.stage? t = some s)
    (hno : ∀ o d, s ≠ .queued o d) : t ∉ b.queue := fun hmem => by
  obtain ⟨-, o, d, hs'⟩ := h.queue t hmem
  exact hno o d (Option.some.inj (hs.symm.trans hs'))

/-- The queue stays as it is when a task moves on that does not wait before or afterwards. -/
theorem mem_queue_iff_of_not_queued {queue : List Nat} (hnot : t ∉ queue)
    (hno : ∀ o d, s' ≠ .queued o d) (u : Nat) :
    u ∈ queue ↔ (u ∈ queue ∧ u ≠ t) ∨ (u = t ∧ t ∈ ts ∧ ∃ o d, s' = .queued o d) := by
  constructor
  · exact fun hu => .inl ⟨hu, fun he => hnot (he ▸ hu)⟩
  · rintro (⟨hu, -⟩ | ⟨-, -, o, d, hs'⟩)
    · exact hu
    · exact absurd hs' (hno o d)

/-- **The turn of a member comes.** -/
theorem Crewed.turn (h : Crewed p c ts b none) (hready : t ∈ p.ready) (hne : t ≠ c) :
    Crewed { p with ready := p.ready.erase t } c ts b (some t) ∧
      ({ p with ready := p.ready.erase t } : Publisher).effort ts + 1 ≤ p.effort ts := by
  refine ⟨{ h with
    goesOn := fun u hu s hs hcan => ?_
    complete := fun hb => (List.mem_erase_of_ne hne.symm).2 (h.complete hb) },
    effort_turn hready rfl fun _ _ => rfl⟩
  by_cases hut : u = t
  · exact .inr (congrArg some hut.symm)
  · rcases h.goesOn u hu s hs hcan with hin | hnone
    · exact .inl ((List.mem_erase_of_ne hut).2 hin)
    · cases hnone

/-- A turn in which there is nothing to do is over. -/
theorem Crewed.settle (h : Crewed p c ts b (some t)) (hs : p.stage? t = some s)
    (hcan : ¬ s.CanGoOn) : Crewed p c ts b none :=
  { h with
    goesOn := fun u hu s' hs' hcan' => (h.goesOn u hu s' hs' hcan').imp_right fun he => by
      cases he
      cases hs.symm.trans hs'
      exact absurd hcan' hcan }

section Member
variable {o' : RegistryOptions} {d : Definition}

/-- **A member waits for a permit**, as there is none. -/
theorem Crewed.awaitPermit (h : Crewed p c ts b (some t)) (ht : t ∈ ts)
    (hs : p.stage? t = some (.asked (.publish o' d))) (h0 : b.permits = some 0) :
    Crewed ((p.setStage c (.gathering { b with queue := b.queue ++ [t] })).setStage t
      (.queued o' d)) c ts { b with queue := b.queue ++ [t] } none := by
  have hne := h.ne hs (by simp)
  have hnot := h.not_queued hs (by simp)
  refine h.moved (moved_setStage_setStage h.gathering hs hne h.apart _ _) (fun _ => id) h.present
    (fun u hu => .inl (Option.some.inj hu).symm) (fun hcan => hcan.elim) (fun u => ?_) ?_
    (fun _ => h0) (fun h0 => .inr ?_) h.complete
  · rw [List.mem_append, List.mem_singleton]
    constructor
    · rintro (hu | rfl)
      · exact .inl ⟨hu, fun he => hnot (he ▸ hu)⟩
      · exact .inr ⟨rfl, ht, o', d, rfl⟩
    · rintro (⟨hu, -⟩ | ⟨rfl, -⟩)
      · exact .inl hu
      · exact .inr rfl
  · refine List.nodup_append.2 ⟨h.once, by simp, fun u hu v hv he => hnot ?_⟩
    rwa [← List.mem_singleton.1 hv, ← he]
  · obtain ⟨u, hu, s, hs', hworks⟩ := h.works h0
    refine ⟨u, hu, fun he => ?_, s, hs', hworks⟩
    rw [he, hs] at hs'
    cases hs'
    exact hworks

/-- **A member takes a permit.** -/
theorem Crewed.takePermit (h : Crewed p c ts b (some t)) (ht : t ∈ ts)
    (hs : p.stage? t = some (.asked (.publish o' d))) {n : Nat} (hn : b.permits = some (n + 1)) :
    Crewed ((p.setStage c (.gathering { b with permits := some n })).setStage t
      (.permitted o' d)) c ts { b with permits := some n } (some t) := by
  have hne := h.ne hs (by simp)
  refine h.moved (moved_setStage_setStage h.gathering hs hne h.apart _ _) (fun _ => id) h.present
    (fun u hu => .inl (Option.some.inj hu).symm) (fun _ => .inr rfl)
    (mem_queue_iff_of_not_queued (h.not_queued hs (by simp)) (by simp)) h.once (fun hq => ?_)
    (fun _ => .inl ⟨ht, trivial⟩) h.complete
  -- nobody waited, since there was a permit
  have h0 := h.starved hq
  rw [hn] at h0
  cases h0

/-- **A member needs no permit** where there is no limit. -/
theorem Crewed.needNoPermit (h : Crewed p c ts b (some t)) (ht : t ∈ ts)
    (hs : p.stage? t = some (.asked (.publish o' d))) :
    Crewed (p.setStage t (.permitted o' d)) c ts b (some t) := by
  have hne := h.ne hs (by simp)
  exact h.moved (moved_setStage h.gathering hs hne _) (fun _ => id) h.present
    (fun u hu => .inl (Option.some.inj hu).symm) (fun _ => .inr rfl)
    (mem_queue_iff_of_not_queued (h.not_queued hs (by simp)) (by simp)) h.once h.starved
    (fun _ => .inl ⟨ht, trivial⟩) h.complete

/-- **The registry is called** for a member. -/
theorem Crewed.call (h : Crewed p c ts b (some t)) (ht : t ∈ ts)
    (hs : p.stage? t = some (.permitted o' d)) (k : Key) (handle : Handle) (d' : Definition)
    (htasks : q.tasks = (p.setStage t (.publishing k handle d')).tasks)
    (hready : q.ready = p.ready) :
    (∃ b', Crewed q c ts b' none) ∧ q.effort ts ≤ p.effort ts := by
  have hne := h.ne hs (by simp)
  have hmoved : Moved p q c ts t _ (.publishing k handle d') b :=
    (moved_setStage h.gathering hs hne _).congr htasks
  refine ⟨⟨b, h.moved hmoved (fun u hu => hready ▸ hu) h.present
    (fun u hu => .inl (Option.some.inj hu).symm) (fun hcan => hcan.elim)
    (mem_queue_iff_of_not_queued (h.not_queued hs (by simp)) (by simp)) h.once h.starved
    (fun _ => .inl ⟨ht, trivial⟩) (fun hb => hready ▸ h.complete hb)⟩, ?_⟩
  have heffort := hmoved.effort h.nodup ht
  rw [hready] at heffort
  simp only [Stage.effort] at heffort
  omega

end Member

/-! ## The end of a member -/

/-- Two tasks are put at their stages in any order. -/
theorem setStage_comm (p : Publisher) (hne : t ≠ u) (s s' : Stage) :
    (p.setStage t s).setStage u s' = (p.setStage u s').setStage t s := by
  unfold setStage
  dsimp only
  rw [List.modify_modify_ne _ _ _ hne]

/-- The permit of a member goes to the task `next`, which waits for one. -/
def passPermit (p : Publisher) (c : Nat) (b : Batch) (queue : List Nat) (next : Nat)
    (o : RegistryOptions) (d : Definition) : Publisher :=
  ((p.setStage c (.gathering { b with queue })).setStage next (.permitted o d)).wake [next]

/-- A member ends, and its permit is there for the next one to ask. -/
theorem finish_of_queue_nil (hparent : p.parent? t = some c)
    (hc : p.stage? c = some (.gathering b)) (hne : t ≠ c) (hq : b.queue = []) (o : Outcome) :
    p.finish t o = ((p.setStage c (.gathering { b with
      outcomes := b.outcomes ++ [(t, o)], permits := b.permits.map (· + 1) })).setStage t
        (.ended o)).wake [c] := by
  unfold Publisher.finish deliver releasePermit
  rw [show p.tasks[t]?.bind (·.parent) = some c from hparent]
  dsimp only
  rw [stage?_setStage_of_ne hne.symm, hc]
  simp only [hq]
  rw [setStage_comm p hne]

/-- A member ends, and its permit goes to the first one that waits. -/
theorem finish_of_queue_cons (hparent : p.parent? t = some c)
    (hc : p.stage? c = some (.gathering b)) (hne : t ≠ c) {next : Nat} {queue : List Nat}
    (hq : b.queue = next :: queue) {o' : RegistryOptions} {d : Definition}
    (hnext : p.stage? next = some (.queued o' d)) (hnt : next ≠ t) (hnc : next ≠ c) (o : Outcome) :
    p.finish t o = (((p.passPermit c b queue next o' d).setStage c (.gathering { b with
      outcomes := b.outcomes ++ [(t, o)], queue })).setStage t (.ended o)).wake [c] := by
  have hfinish : p.finish t o = ((((p.setStage t (.ended o)).setStage c (.gathering { b with
      outcomes := b.outcomes ++ [(t, o)], queue })).setStage next (.permitted o' d)).wake
        [next]).wake [c] := by
    unfold Publisher.finish deliver releasePermit
    rw [show p.tasks[t]?.bind (·.parent) = some c from hparent]
    dsimp only
    rw [stage?_setStage_of_ne hne.symm, hc]
    simp only [hq]
    rw [stage?_setStage_of_ne hnc, stage?_setStage_of_ne hnt, hnext]
  rw [hfinish, setStage_comm p hne, setStage_comm _ hnt.symm]
  show _ = ((((((p.setStage c _).setStage next _).setStage c _).setStage t _)).wake [next]).wake [c]
  rw [setStage_comm _ hnc, setStage_setStage]

theorem Moved.effort_le (h : Moved p q c ts t s s' b') (hnodup : ts.Nodup) (ht : t ∈ ts)
    (hlen : q.ready.length ≤ p.ready.length + 1) :
    q.effort ts + s.effort ≤ p.effort ts + s'.effort + 1 := by
  have heffort := h.effort hnodup ht
  omega

/-- **A permit that is passed on** is paid for by the member that waited for it. -/
theorem Crewed.passPermit (h : Crewed p c ts b active) {next : Nat} {queue : List Nat}
    (hq : b.queue = next :: queue) (hnext : next ∈ ts) {o : RegistryOptions} {d : Definition}
    (hs : p.stage? next = some (.queued o d)) :
    Crewed (p.passPermit c b queue next o d) c ts { b with queue } active ∧
      (p.passPermit c b queue next o d).effort ts ≤ p.effort ts := by
  have hne := h.ne hs (by simp)
  have h0 : b.permits = some 0 := h.starved (by simp [hq])
  have honce := h.once
  rw [hq] at honce
  obtain ⟨hnot, honce⟩ := List.nodup_cons.1 honce
  have hmoved : Moved p (p.passPermit c b queue next o d) c ts next (.queued o d) (.permitted o d)
      { b with queue } := (moved_setStage_setStage h.gathering hs hne h.apart _ _).congr rfl
  refine ⟨h.moved hmoved (fun u hu => mem_ready_wake.2 (.inl hu)) h.present (fun u hu => .inr hu)
    (fun _ => .inl (mem_ready_wake.2 (.inr (by simp)))) (fun u => ?_) honce (fun _ => h0)
    (fun _ => .inl ⟨hnext, trivial⟩) fun hb => mem_ready_wake.2 (.inl (h.complete hb)), ?_⟩
  · rw [hq, List.mem_cons]
    constructor
    · exact fun hu => .inl ⟨.inr hu, fun he => hnot (he ▸ hu)⟩
    · rintro (⟨rfl | hu, hun⟩ | ⟨-, -, o, d, he⟩)
      · exact absurd rfl hun
      · exact hu
      · cases he
  · have hle := hmoved.effort_le h.nodup hnext (length_ready_wake_le _ [next])
    simp only [Stage.effort] at hle
    omega

/-- **The turn of the batch** is paid for by the member that ends. -/
theorem Crewed.note (h : Crewed p c ts b active) (hactive : ∀ u, active = some u → u = t)
    (ht : t ∈ ts) (hs : p.stage? t = some s) (hworks : s.Works) (o : Outcome) (b' : Batch)
    (hpresent : b'.abandoned = b.abandoned) (hqueue : b'.queue = b.queue)
    (hstarved : b'.queue ≠ [] → b'.permits = some 0)
    (hothers : b'.permits = some 0 → ∃ u ∈ ts, u ≠ t ∧ ∃ s, p.stage? u = some s ∧ s.Works) :
    Crewed (((p.setStage c (.gathering b')).setStage t (.ended o)).wake [c]) c ts b' none ∧
      (((p.setStage c (.gathering b')).setStage t (.ended o)).wake [c]).effort ts + 1 ≤
        p.effort ts := by
  have hne : t ≠ c := h.ne hs fun b he => by
    rw [he] at hworks
    exact hworks
  have hnot : t ∉ b'.queue := hqueue ▸ h.not_queued hs fun o d he => by
    rw [he] at hworks
    exact hworks
  have hmoved : Moved p (((p.setStage c (.gathering b')).setStage t (.ended o)).wake [c]) c ts t s
      (.ended o) b' := (moved_setStage_setStage h.gathering hs hne h.apart _ _).congr rfl
  refine ⟨h.moved hmoved (fun u hu => mem_ready_wake.2 (.inl hu)) (hpresent.trans h.present)
    (fun u hu => .inl (hactive u hu)) (fun hcan => hcan.elim)
    (hqueue ▸ mem_queue_iff_of_not_queued hnot (by simp)) (hqueue ▸ h.once) hstarved
    (fun h0 => .inr (hothers h0)) fun _ => mem_ready_wake.2 (.inr (by simp)), ?_⟩
  have hle := hmoved.effort_le h.nodup ht (length_ready_wake_le _ [c])
  rw [hworks.effort] at hle
  have hended : (Stage.ended o).effort = 0 := rfl
  omega

/-- **A member that ends** keeps the batch going. -/
theorem Crewed.finish (h : Crewed p c ts b active) (hactive : ∀ u, active = some u → u = t)
    (ht : t ∈ ts) (hs : p.stage? t = some s) (hworks : s.Works) (o : Outcome) :
    (∃ b', Crewed (p.finish t o) c ts b' none) ∧ (p.finish t o).effort ts + 1 ≤ p.effort ts := by
  have hne : t ≠ c := h.ne hs fun b he => by
    rw [he] at hworks
    exact hworks
  have hparent := h.children t ht
  cases hq : b.queue with
  | nil =>
    rw [finish_of_queue_nil hparent h.gathering hne hq o]
    obtain ⟨hnoted, hle⟩ := h.note hactive ht hs hworks o
      { b with outcomes := b.outcomes ++ [(t, o)], permits := b.permits.map (· + 1) } rfl rfl
      (fun hsome => absurd hq hsome) fun h0 => by
        -- there is a permit now
        cases hpermits : b.permits <;> simp [hpermits] at h0
    exact ⟨⟨_, hnoted⟩, hle⟩
  | cons next queue =>
    obtain ⟨hnext, o', d, hs'⟩ := h.queue next (by simp [hq])
    have hnt : next ≠ t := fun he => by
      rw [he, hs] at hs'
      cases hs'
      exact hworks
    have hnc : next ≠ c := h.ne hs' (by simp)
    rw [finish_of_queue_cons hparent h.gathering hne hq hs' hnt hnc o]
    obtain ⟨hpassed, hle⟩ := h.passPermit hq hnext hs'
    have hother : ∀ u, u ≠ next → u ≠ c →
        (p.passPermit c b queue next o' d).stage? u = p.stage? u := fun u hun huc =>
      (stage?_setStage_of_ne hun).trans (stage?_setStage_of_ne huc)
    have hpermitted : (p.passPermit c b queue next o' d).stage? next = some (.permitted o' d) :=
      stage?_setStage_self ((stage?_setStage_of_ne hnc).trans hs')
    obtain ⟨hnoted, hle'⟩ := hpassed.note hactive ht ((hother t hnt.symm hne).trans hs) hworks o
      { b with outcomes := b.outcomes ++ [(t, o)], queue } rfl rfl
      (fun _ => h.starved (by simp [hq])) fun _ => ⟨next, hnext, hnt, _, hpermitted, trivial⟩
    exact ⟨⟨_, hnoted⟩, by omega⟩

/-! ## Turns and answers -/

section Turns
variable {o' : RegistryOptions} {d : Definition}

/-- **A member begins to publish.** -/
theorem Crewed.beginPublish (h : Crewed p c ts b (some t)) (ht : t ∈ ts)
    (hs : p.stage? t = some (.permitted o' d)) :
    (∃ b', Crewed (p.beginPublish t o' d) c ts b' none) ∧
      (p.beginPublish t o' d).effort ts ≤ p.effort ts := by
  have finished : ∀ o, (∃ b', Crewed (p.finish t o) c ts b' none) ∧
      (p.finish t o).effort ts ≤ p.effort ts := fun o =>
    (h.finish (fun u hu => (Option.some.inj hu).symm) ht hs trivial o).imp_right
      (Nat.le_of_succ_le ·)
  unfold Publisher.beginPublish
  split
  · exact finished _
  · split
    · exact finished _
    · split
      · exact finished _
      · rename_i k r hr
        dsimp only
        exact h.call ht hs k _ _ rfl rfl

/-- **A member begins**: it waits for a permit, or it begins to publish. -/
theorem Crewed.beginMember (h : Crewed p c ts b (some t)) (ht : t ∈ ts)
    (hs : p.stage? t = some (.asked (.publish o' d))) :
    (∃ b', Crewed (p.beginMember t c o' d) c ts b' none) ∧
      (p.beginMember t c o' d).effort ts ≤ p.effort ts := by
  have hne := h.ne hs (by simp)
  unfold Publisher.beginMember
  rw [h.gathering]
  dsimp only
  split
  · rename_i h0
    have hmoved : Moved p _ c ts t _ _ _ := moved_setStage_setStage h.gathering hs hne h.apart
      (.queued o' d) { b with queue := b.queue ++ [t] }
    have heffort := hmoved.effort h.nodup ht
    simp only [Stage.effort, ready_setStage] at heffort
    exact ⟨⟨_, h.awaitPermit ht hs h0⟩, by omega⟩
  · rename_i n hn
    have hgranted := h.takePermit ht hs hn
    have hmoved : Moved p _ c ts t _ _ _ := moved_setStage_setStage h.gathering hs hne h.apart
      (.permitted o' d) { b with permits := some n }
    have heffort := hmoved.effort h.nodup ht
    simp only [Stage.effort, ready_setStage] at heffort
    rw [← beginPublish_setStage _ t (.permitted o' d)]
    obtain ⟨hbegun, hle⟩ := hgranted.beginPublish ht hmoved.after
    exact ⟨hbegun, by omega⟩
  · have hmoved : Moved p _ c ts t _ _ b := moved_setStage h.gathering hs hne (.permitted o' d)
    have heffort := hmoved.effort h.nodup ht
    simp only [Stage.effort, ready_setStage] at heffort
    rw [← beginPublish_setStage _ t (.permitted o' d)]
    obtain ⟨hbegun, hle⟩ := (h.needNoPermit ht hs).beginPublish ht hmoved.after
    exact ⟨hbegun, by omega⟩

/-- **The turn of a member** keeps the batch going, and less may happen then. -/
theorem Crewed.run (h : Crewed p c ts b none) (ht : t ∈ ts) (hs : p.stage? t = some s)
    (hmember : s.IsMember) (hready : t ∈ p.ready) :
    (∃ b', Crewed (p.run t) c ts b' none) ∧ (p.run t).effort ts + 1 ≤ p.effort ts := by
  obtain ⟨hturn, heffort⟩ := h.turn hready (h.ne hs fun b he => by rw [he] at hmember; exact hmember)
  obtain ⟨parent, htask⟩ := stage?_eq_some_iff.1 hs
  have hparent : parent = some c := by
    have hchild := h.children t ht
    rwa [parent?, htask] at hchild
  unfold Publisher.run
  rw [if_pos (List.contains_iff_mem.2 hready)]
  dsimp only
  rw [htask]
  cases s with
  | asked request =>
    cases request with
    | publish o' d =>
      rw [hparent]
      obtain ⟨hbegun, hle⟩ := hturn.beginMember ht hs
      exact ⟨hbegun, by dsimp only [begin]; omega⟩
    | _ => exact hmember.elim
  | permitted o' d =>
    obtain ⟨hbegun, hle⟩ := hturn.beginPublish ht hs
    exact ⟨hbegun, by dsimp only; omega⟩
  | queued | publishing | ended => exact ⟨⟨_, hturn.settle hs id⟩, heffort⟩
  | _ => exact hmember.elim

/-- **An answer to a member** keeps the batch going, and less may happen then. -/
theorem Crewed.answer (h : Crewed p c ts b none) (hp : p.Sound) (hopen : p.registrar.closed = false)
    (ht : t ∈ ts) {k : Key} {handle : Handle} {d' : Definition}
    (hs : p.stage? t = some (.publishing k handle d')) (a : Answer) :
    (∃ b', Crewed (p.answerPublish t a) c ts b' none) ∧
      (p.answerPublish t a).effort ts + 1 ≤ p.effort ts := by
  -- nobody is woken by the end of a reservation
  have ended : ∀ {p' : Publisher} (o : Outcome), p'.tasks = p.tasks → p'.ready = p.ready →
      (∃ b', Crewed (p'.finish t o) c ts b' none) ∧ (p'.finish t o).effort ts + 1 ≤ p.effort ts := by
    intro p' o htasks hready
    have hsame : p'.effort ts + p.ready.length = p.effort ts + p'.ready.length :=
      effort_of_stages fun u _ => stage?_congr htasks u
    rw [hready] at hsame
    obtain ⟨hcrewed, hle⟩ := (h.congr htasks hready).finish (by simp) ht
      ((stage?_congr htasks t).trans hs) trivial o
    exact ⟨hcrewed, by omega⟩
  have idle : ∀ r, (p.withRegistrar r).wakeIdle = p.withRegistrar r := fun r =>
    hp.wakeIdle_of_open hopen rfl
  unfold answerPublish
  rw [hs]
  cases a with
  | record record =>
    dsimp only
    rw [idle]
    refine ended _ ?_ ?_ <;> split <;> rfl
  | refused cause =>
    dsimp only
    rw [idle]
    exact ended _ rfl rfl
  | broken message =>
    dsimp only
    rw [idle]
    exact ended _ rfl rfl

end Turns

/-- In the turn of a batch it looks whether it is complete. -/
theorem run_gathering (hc : p.stage? c = some (.gathering b)) (hready : c ∈ p.ready) :
    p.run c = Publisher.gather { p with ready := p.ready.erase c } c b := by
  obtain ⟨parent, htask⟩ := stage?_eq_some_iff.1 hc
  simp only [Publisher.run, List.contains_iff_mem.2 hready, ite_true, htask]

/-- **The turn of the batch** ends it if it is complete, and otherwise keeps it going; less may happen
then. -/
theorem Crewed.gather (h : Crewed p c ts b none) (hready : c ∈ p.ready) :
    ((∃ b', Crewed (p.run c) c ts b' none) ∨ ∃ o, (p.run c).stage? c = some (.ended o)) ∧
      (p.run c).effort ts + 1 ≤ p.effort ts := by
  rw [run_gathering h.gathering hready]
  unfold Publisher.gather
  split
  · refine ⟨.inr ⟨_, stage?_setStage_self h.gathering⟩, effort_turn hready rfl fun t ht => ?_⟩
    have hne : t ≠ c := fun he => h.apart (he ▸ ht)
    exact stage?_setStage_of_ne hne
  · rename_i hnot
    have hopen : b.isComplete = false := by simpa [h.present] using hnot
    refine ⟨.inl ⟨b, { h with goesOn := fun t ht s hs hcan => ?_, complete := fun hb => ?_ }⟩,
      effort_turn hready rfl fun _ _ => rfl⟩
    · have hne : t ≠ c := fun he => h.apart (he ▸ ht)
      exact (h.goesOn t ht s hs hcan).imp_left (List.mem_erase_of_ne hne).2
    · rw [hopen] at hb
      cases hb

/-- When all members of a batch have ended it is complete. -/
theorem BatchKept.isComplete (h : BatchKept p c b)
    (hended : ∀ t ∈ b.members.map (·.1), ∃ o, p.stage? t = some (.ended o)) :
    b.isComplete = true := by
  have hperm : (b.outcomes.map (·.1)).Perm (b.members.map (·.1)) := by
    refine (List.perm_ext_iff_of_nodup h.once h.nodup).2 fun t => ⟨fun ht => ?_, fun ht => ?_⟩
    · obtain ⟨⟨t, o⟩, hin, rfl⟩ := List.mem_map.1 ht
      exact (h.children t).1 ((h.noted t o).1 hin).1
    · obtain ⟨o, ho⟩ := hended t ht
      exact List.mem_map.2 ⟨(t, o), (h.noted t o).2 ⟨(h.children t).2 ht, ho⟩, rfl⟩
  have hlen := hperm.length_eq
  rw [List.length_map, List.length_map] at hlen
  exact beq_iff_eq.2 hlen

/-- **Something can happen**: the batch or a member has a turn, or a member waits for the answer to its
call. -/
theorem Crewed.busy (h : Crewed p c (b.members.map (·.1)) b none) (hkept : BatchKept p c b) :
    c ∈ p.ready ∨ ∃ t ∈ b.members.map (·.1),
      t ∈ p.ready ∨ ∃ k handle d, p.stage? t = some (.publishing k handle d) := by
  by_contra hidle
  push Not at hidle
  obtain ⟨hc, hidle⟩ := hidle
  have stuck : ∀ t ∈ b.members.map (·.1), ∀ s, p.stage? t = some s → ¬ s.CanGoOn ∧ ¬ s.Works := by
    intro t ht s hs
    obtain ⟨hturn, hcall⟩ := hidle t ht
    have hcan : ¬ s.CanGoOn := fun hcan => by
      rcases h.goesOn t ht s hs hcan with hin | hnone
      · exact hturn hin
      · cases hnone
    refine ⟨hcan, fun hworks => ?_⟩
    cases s with
    | permitted => exact hcan trivial
    | publishing k handle d => exact hcall k handle d hs
    | _ => exact hworks
  -- nobody has a permit, so there are permits, so nobody waits for one, so all have ended
  have hnone : b.queue = [] := by
    by_contra hsome
    obtain ⟨t, ht, s, hs, hworks⟩ := h.works (h.starved hsome)
    exact (stuck t ht s hs).2 hworks
  refine hc (h.complete (hkept.isComplete fun t ht => ?_))
  obtain ⟨s, hs, hmember⟩ := hkept.member t ((hkept.children t).2 ht)
  obtain ⟨hcan, hworks⟩ := stuck t ht s hs
  cases s with
  | asked => exact absurd trivial hcan
  | queued o d =>
    have hmem := h.queued t ht o d hs
    rw [hnone] at hmem
    cases hmem
  | permitted | publishing => exact absurd trivial hworks
  | ended o => exact ⟨o, hs⟩
  | _ => exact hmember.elim

end Publisher
end SchemaHerald
