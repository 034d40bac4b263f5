import SchemaHerald.Proofs.AnyAnswers
import SchemaHerald.Proofs.BatchRoster
import SchemaHerald.Proofs.CallsAndTurns
import SchemaHerald.Proofs.FailedCalls

/-!
# Batches along a run

A batch begins as a roster in which everyone is fresh (`Orderly.roster_begun`) and moves as one, so that
every batch of every run is sound (`Orderly.moves`). With it goes the balance of the permits: those
that are left and those that members have (`holding`) are as many as there are to be, so that never
more members have the registry called (`inProgress`).
-/
namespace SchemaHerald

namespace Stage

/-- The stages of a task that is to be a batch or is one. -/
def IsBatch : Stage → Prop
  | .asked (.publishAll ..) | .gathering _ => True
  | _ => False

/-- Only what is to be a batch becomes one. -/
theorem IsBatch.of_next {s s' : Stage} (h : s'.IsBatch) (hn : s.Next s') : s.IsBatch := by
  cases hn with
  | beginBatch | batch => trivial
  | _ => exact h.elim

end Stage

namespace Publisher

open Relation

variable {p q : Publisher} {c t u n : Nat} {s s' : Stage} {b b' : Batch} {o o' : RegistryOptions}
  {d : Definition} {ds : List Definition} {out : Outcome} {m : Move}

/-! ## How a batch begins -/

/-- **In a move** only who was to be a batch becomes one. -/
theorem Sound.isBatch_move (h : p.Sound) (hm : ∀ request, m ≠ .ask request)
    (hs : (p.move m).stage? c = some s') (hs' : s'.IsBatch) :
    ∃ s, p.stage? c = some s ∧ s.IsBatch := by
  have hall : (p.move m).Sound ∧ ∀ s, (p.move m).stage? c = some s → s.IsBatch →
      ∃ s, p.stage? c = some s ∧ s.IsBatch := by
    refine move_induction (P := fun q => q.Sound ∧ ∀ s, q.stage? c = some s → s.IsBatch →
      ∃ s, p.stage? c = some s ∧ s.IsBatch) m ?_ ?_ ?_ ?_ ⟨h, fun s hs hb => ⟨s, hs, hb⟩⟩
    · exact fun request he => absurd he (hm request)
    · intro t q q' hstep ⟨hq, hcame⟩
      refine ⟨hq.step hstep, fun s hs hb => ?_⟩
      rcases hq.came_step hstep hs with hsame | ⟨s₀, hs₀, hn⟩ | ⟨-, hfresh⟩
      · exact hcame s hsame hb
      · exact hcame s₀ hs₀ (hb.of_next hn)
      · cases s with
        | asked request =>
          cases request with
          | publish => exact hb.elim
          | _ => exact hfresh.elim
        | unpublishing => exact hb.elim
        | _ => exact hfresh.elim
    · intro t q hreply
      refine ⟨h.reply hreply, fun s hs hb => ?_⟩
      rcases h.came_reply hreply hs with hsame | ⟨s₀, hs₀, hn⟩
      · exact ⟨s, hsame, hb⟩
      · exact ⟨s₀, hs₀, hb.of_next hn⟩
    · intro hd
      refine ⟨h.direct hd, fun s hs hb => ?_⟩
      rw [stage?_congr (tasks_of_isDirect p hd)] at hs
      exact ⟨s, hs, hb⟩
  exact hall.2 s' hs hs'

/-- **A batch was under way before, or this is its first turn.** -/
theorem Sound.gathering_move (h : p.Sound) (hb : (p.move m).stage? c = some (.gathering b)) :
    (∃ b', p.stage? c = some (.gathering b')) ∨
      (m = .run c ∧ c ∈ p.ready ∧ ∃ o ds, p.stage? c = some (.asked (.publishAll o ds))) := by
  by_cases hm : ∃ request, m = .ask request
  · obtain ⟨request, rfl⟩ := hm
    rcases stage?_of_ask hb with hold | hnew
    · exact .inl ⟨b, hold⟩
    · cases hnew
  · push Not at hm
    obtain ⟨s, hs, hbatch⟩ := h.isBatch_move hm hb trivial
    cases s with
    | gathering b' => exact .inl ⟨b', hs⟩
    | asked request =>
      rcases h.stage?_move hs id id m with hsame | ⟨hrun, hready⟩
      · cases hb.symm.trans hsame
      · cases request with
        | publishAll o ds => exact .inr ⟨hrun, hready, o, ds, hs⟩
        | _ => exact hbatch.elim
    | _ => exact hbatch.elim

/-- **The first turn of a batch**: it is refused, or its members are made and have turns. -/
theorem Sound.run_publishAll_cases (h : p.Sound) (hready : c ∈ p.ready)
    (hc : p.stage? c = some (.asked (.publishAll o ds))) :
    (∃ out, BatchRefused p.limit o ds out ∧ (p.run c).outcome? c = some out) ∨
      (ds ≠ [] ∧ Text.trim o.name ≠ "" ∧ (∀ n, p.limit = some n → n ≤ Batch.mostPermits) ∧
        p.run c = (Publisher.withBatch { p with ready := p.ready.erase c } c
          { o with name := Text.trim o.name } ds).wake (List.range' p.tasks.length ds.length)) := by
  rcases beginBatch_refused { p with ready := p.ready.erase c } c o ds with
    ⟨hne, hname, hlimit⟩ | ⟨out, hrefused, hfinish⟩
  · have ho : o.canonical? = .ok { o with name := Text.trim o.name } :=
      RegistryOptions.canonical?_eq_ok_iff.2 ⟨hname, rfl⟩
    exact .inr ⟨hne, hname, hlimit, run_publishAll_eq hready hc hne ho hlimit⟩
  · refine .inl ⟨out, hrefused, ?_⟩
    have htasks : ({ p with ready := p.ready.erase c } : Publisher).tasks = p.tasks := rfl
    rw [run_of_publishAll hready hc, hfinish, outcome?_eq_some_iff]
    exact h.ended_finish htasks hc out

/-- Where a new member of a batch stands. -/
theorem stage?_withBatch (hc : c < p.tasks.length) {i : Nat} (hd : ds[i]? = some d) :
    (p.withBatch c o ds).stage? (p.tasks.length + i) = some (.asked (.publish o d)) := by
  have hne : p.tasks.length + i ≠ c := by omega
  rw [withBatch, stage?_setStage_of_ne hne, stage?_append (p := p) rfl, if_neg (by omega),
    Nat.add_sub_cancel_left, memberTasks, List.getElem?_map, hd]
  rfl

/-- **What holds of a publisher** and its batches at all times. -/
structure Orderly (p : Publisher) : Prop where
  sound : p.Sound
  kin : p.Kin
  manned : p.Manned
  called : p.PublishCalled
  crews : p.Crews

theorem orderly_fresh (id : String) (listening : Bool) (limit : Option Nat) :
    (fresh id listening limit).Orderly :=
  ⟨sound_fresh id listening limit, kin_fresh id listening limit, manned_fresh id listening limit,
    publishCalled_fresh id listening limit, fun c b hb => by cases hb⟩

section Beginning
variable (h : p.Orderly) (hc : p.stage? c = some (.asked (.publishAll o ds)))
  (hrun : q = (Publisher.withBatch { p with ready := p.ready.erase c } c o' ds).wake
    (List.range' p.tasks.length ds.length))
include h hc hrun

/-- The members of a batch that begins are the new tasks. -/
theorem Orderly.children_begun (t : Nat) :
    q.parent? t = some c ↔ t ∈ List.range' p.tasks.length ds.length := by
  have hkept := (h.kin.congr (q := { p with ready := p.ready.erase c }) rfl).batchKept hc o'
  have hnumbers : (p.newBatch o' ds).members.map (·.1) = List.range' p.tasks.length ds.length :=
    List.map_fst_zip (by simp)
  rw [hrun, ← hnumbers]
  exact hkept.children t

theorem Orderly.le_of_child (ht : q.parent? t = some c) : p.tasks.length ≤ t :=
  (List.mem_range'_1.1 ((h.children_begun hc hrun t).1 ht)).1

/-- Nobody has begun. -/
theorem Orderly.phaseOf_begun (t : Nat) :
    q.phaseOf c t = if t ∈ List.range' p.tasks.length ds.length then .fresh else .ended := by
  split
  · rename_i ht
    obtain ⟨hle, hlt⟩ := List.mem_range'_1.1 ht
    obtain ⟨i, rfl⟩ := Nat.exists_eq_add_of_le hle
    have hi : i < ds.length := by omega
    have hs : q.stage? (p.tasks.length + i) = some (.asked (.publish o' ds[i])) := by
      rw [hrun]
      exact stage?_withBatch (p := { p with ready := p.ready.erase c })
        (lt_length_of_stage? hc) (List.getElem?_eq_getElem hi)
    exact phaseOf_member ((h.children_begun hc hrun _).2 ht) hs
  · rename_i ht
    exact phaseOf_other fun hparent => ht ((h.children_begun hc hrun t).1 hparent)

/-- Everyone has a turn, and nobody had one before. -/
theorem Orderly.turnsOf_begun : q.turnsOf c = List.range' p.tasks.length ds.length := by
  have hready : ∀ t ∈ p.ready.erase c, t < p.tasks.length := fun t ht =>
    h.manned t (List.mem_of_mem_erase ht)
  have hnone : (Publisher.withBatch { p with ready := p.ready.erase c } c o' ds).turnsOf c = [] := by
    refine List.filter_eq_nil_iff.2 fun t ht hparent => ?_
    have hge : p.tasks.length ≤ t :=
      h.le_of_child hc hrun (by rw [hrun]; exact beq_iff_eq.1 hparent)
    have hlt := hready t ht
    omega
  rw [hrun, turnsOf_wake, hnone, List.nil_append]
  refine List.filter_eq_self.2 fun t ht => ?_
  have hparent : (Publisher.withBatch { p with ready := p.ready.erase c } c o' ds).parent? t =
      some c := by
    have hchild := (h.children_begun hc hrun t).2 ht
    rwa [hrun] at hchild
  have hnot : t ∉ p.ready.erase c := fun hmem => by
    have hlt := hready t hmem
    have hge := (List.mem_range'_1.1 ht).1
    omega
  show (_ == _ && !(p.ready.erase c).contains t) = true
  simp [hparent, hnot]

/-- Nobody has had the registry called. -/
theorem Orderly.callsOf_begun : q.callsOf c = [] := by
  refine List.filterMap_eq_nil_iff.2 fun e he => ?_
  cases e with
  | publishCall t handle d =>
    have hjournal : q.journal = p.journal := by
      rw [hrun]
      rfl
    rw [List.mem_reverse, hjournal] at he
    obtain ⟨s, hs, -⟩ := h.called t handle d he
    have hlt := lt_length_of_stage? hs
    refine if_neg fun hparent => ?_
    have hge := h.le_of_child hc hrun hparent
    omega
  | _ => rfl

/-- **A batch begins with everyone fresh**, each in his turn, and with all permits. -/
theorem Orderly.roster_begun : q.stage? c = some (.gathering (p.newBatch o' ds)) ∧
    q.roster c (p.newBatch o' ds) =
      .start (List.range' p.tasks.length ds.length) (p.limit.map (max 1)) := by
  constructor
  · rw [hrun]
    exact stage?_setStage_self (stage?_append_of_some (p := p) rfl hc)
  · rw [roster, funext (h.phaseOf_begun hc hrun), h.turnsOf_begun hc hrun, h.callsOf_begun hc hrun]
    rfl

end Beginning

/-! ## Every run -/

/-- The publisher signs with the same name. -/
theorem Sound.publisher_move (h : p.Sound) (m : Move) :
    (p.move m).registrar.publisher = p.registrar.publisher := by
  cases hm : m.isDirect with
  | true => exact (h.use_move hm).publisher
  | false => exact (h.changes_move hm).publisher

theorem Sound.publisher_moves (h : p.Sound) (ms : List Move) :
    (p.moves ms).registrar.publisher = p.registrar.publisher := by
  induction ms generalizing p with
  | nil => rfl
  | cons m ms ih => exact (ih (h.move m)).trans (h.publisher_move m)

/-- What the registry would be called with for a task that publishes and has not begun. -/
def signed (p : Publisher) (t : Nat) : Definition :=
  (((p.stage? t).bind Stage.definition?).getD default).stamp p.registrar.publisher

/-- **Every batch stays sound.** -/
theorem Orderly.crews_move (h : p.Orderly) (m : Move) : (p.move m).Crews := by
  intro c b hb
  rw [limit_move]
  rcases h.sound.gathering_move hb with ⟨b', hb'⟩ | ⟨rfl, hready, o, ds, hc⟩
  · have hr := h.crews c b' hb'
    have hsign : ∀ t s d, p.parent? t = some c → p.stage? t = some s → s.definition? = some d →
        p.signed t = d.stamp p.registrar.publisher := by
      intro t s d _ hs hd
      simp [signed, hs, hd]
    obtain ⟨b₁, hb₁, hmembers, hstep⟩ :=
      h.sound.roster_move h.kin h.crews (.inl hb') hr hsign m
    rcases hb₁ with hc | ⟨out, hc⟩
    · cases hb.symm.trans hc
      rw [hmembers]
      exact hr.step hstep
    · cases hb.symm.trans hc
  · rcases h.sound.run_publishAll_cases hready hc with ⟨out, -, hout⟩ | ⟨-, -, -, hrun⟩
    · cases hb.symm.trans (outcome?_eq_some_iff.1 hout)
    · obtain ⟨hbatch, hroster⟩ := h.roster_begun hc hrun
      cases hb.symm.trans hbatch
      have hnumbers : (p.newBatch { o with name := Text.trim o.name } ds).members.map (·.1) =
          List.range' p.tasks.length ds.length := List.map_fst_zip (by simp)
      rw [hnumbers, show (p.move (.run c)).roster c _ = _ from hroster]
      exact Roster.sound_start List.nodup_range' _

theorem Orderly.move (h : p.Orderly) (m : Move) : (p.move m).Orderly :=
  ⟨h.sound.move m, h.kin.move h.sound m, h.manned.move m, h.called.move h.sound m, h.crews_move m⟩

theorem Orderly.moves (h : p.Orderly) (ms : List Move) : (p.moves ms).Orderly := by
  induction ms generalizing p with
  | nil => exact h
  | cons m ms ih => exact ih (h.move m)

/-! ## Permits -/

/-- **The members of the batch of task `c` that have the registry called** now. -/
def inProgress (p : Publisher) (c : Nat) : List Nat :=
  (List.range p.tasks.length).filter fun t => p.phaseOf c t = .calling

/-- The members of the batch of task `c` that have a permit now. -/
def holding (p : Publisher) (c : Nat) : List Nat :=
  (List.range p.tasks.length).filter fun t => (p.phaseOf c t).held = 1

/-- Whoever has not ended is a task. -/
theorem lt_length_of_phaseOf (h : p.phaseOf c t ≠ .ended) : t < p.tasks.length := by
  obtain ⟨-, s, hs, -⟩ := exists_of_phaseOf h
  exact lt_length_of_stage? hs

theorem mem_inProgress_iff : t ∈ p.inProgress c ↔ p.phaseOf c t = .calling := by
  have hlt : p.phaseOf c t = .calling → t < p.tasks.length := fun hs =>
    lt_length_of_phaseOf (c := c) (by simp [hs])
  simpa [inProgress] using hlt

theorem mem_holding_iff : t ∈ p.holding c ↔ (p.phaseOf c t).held = 1 := by
  have hlt : (p.phaseOf c t).held = 1 → t < p.tasks.length := fun hs =>
    lt_length_of_phaseOf (c := c) fun hended => by simp [hended, Phase.held] at hs
  simpa [holding] using hlt

theorem nodup_holding (p : Publisher) (c : Nat) : (p.holding c).Nodup := List.nodup_range.filter _

/-- A member that has the registry called has a permit. -/
theorem inProgress_sublist_holding (p : Publisher) (c : Nat) :
    (p.inProgress c).Sublist (p.holding c) := by
  refine List.monotone_filter_right _ fun t ht => ?_
  rw [decide_eq_true_eq] at ht ⊢
  rw [ht]
  rfl

/-- **Never more members have the registry called** than there are to be. -/
theorem Orderly.length_inProgress_le (h : p.Orderly) (hn : p.limit.map (max 1) = some n) (c : Nat) :
    (p.inProgress c).length ≤ n := by
  by_cases hb : ∃ b, p.stage? c = some (.gathering b)
  · obtain ⟨b, hb⟩ := hb
    obtain ⟨left, -, hsum⟩ :=
      (h.crews c b hb).permits_add hn (p.nodup_holding c) fun _ => mem_holding_iff
    have hle := (p.inProgress_sublist_holding c).length_le
    omega
  · have hnone : p.inProgress c = [] := by
      refine List.eq_nil_iff_forall_not_mem.2 fun t ht => ?_
      obtain ⟨hparent, k, handle, d, hs⟩ := publishing_of_phaseOf (mem_inProgress_iff.1 ht)
      rcases h.kin.part_cases h.sound.parents hs hparent with ⟨b, hc, -⟩ | ⟨_, r, -, -, -, he⟩ | ⟨_, he⟩
      · exact hb ⟨b, hc⟩
      · rcases Stage.ofRemoval_cases r with hr | ⟨out, hr⟩ <;> rw [hr] at he <;> cases he
      · cases he
    rw [hnone]
    exact Nat.zero_le n

end Publisher
end SchemaHerald
