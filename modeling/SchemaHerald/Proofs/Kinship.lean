import SchemaHerald.Proofs.Lifecycle

/-!
# Tasks and the tasks they are a part of

Only a batch and a teardown have parts. What each of them has written down about its parts is what
became of them: a batch has noted exactly the members that have ended, each once
(`BatchKept`), and a teardown has one removal for each of its parts, with the outcome if it has
ended (`DrainKept`). A task that has ended has no part that is still at work. `Kin.step` and
`Kin.reply` show that nothing disturbs this.
-/
namespace SchemaHerald

namespace Stage

/-- The stages of a publish that is under way. -/
def IsPending : Stage → Prop
  | .asked (.publish ..) | .queued .. | .permitted .. | .publishing .. => True
  | _ => False

/-- The stages of a member of a batch. -/
def IsMember : Stage → Prop
  | .asked (.publish ..) | .queued .. | .permitted .. | .publishing .. => True
  | .ended (.registered _) | .ended (.failed _) | .ended (.broken _) => True
  | _ => False

theorem IsPending.isMember {s : Stage} (h : s.IsPending) : s.IsMember := by
  cases s with
  | asked request => cases request <;> exact h
  | queued | permitted | publishing => trivial
  | _ => exact h.elim

/-- The stages at which a task has parts. -/
def HasParts : Stage → Prop
  | .gathering _ | .draining _ | .ended _ => True
  | _ => False

theorem IsPending.no_parts {s : Stage} (h : s.IsPending) : ¬ s.HasParts := by
  cases s with
  | gathering | draining | ended => exact h.elim
  | _ => exact id

/-- A member of a batch ends as one. -/
theorem IsMember.ended {s : Stage} {o : Outcome} (h : s.IsMember) (hn : s.Next (.ended o)) :
    (Stage.ended o).IsMember := by
  cases hn with
  | refuse | commit => trivial
  | lose k g d outcome ho => rcases ho with ⟨failure, rfl⟩ | ⟨message, rfl⟩ <;> trivial
  | _ => exact h.elim

/-- Where the task of a removal stands. -/
def ofRemoval (m : Removal) : Stage :=
  match m.outcome with
  | none => .unpublishing m.registration
  | some o => .ended o

theorem ofRemoval_cases (m : Removal) :
    ofRemoval m = .unpublishing m.registration ∨ ∃ o, ofRemoval m = .ended o := by
  unfold ofRemoval
  split
  · exact .inl rfl
  · exact .inr ⟨_, rfl⟩

end Stage

namespace Publisher

open Relation

variable {p q : Publisher} {t u c : Nat} {s s' : Stage} {o : Outcome} {b : Batch} {d : Drain}

/-- **What a batch knows** about its members. -/
structure BatchKept (p : Publisher) (c : Nat) (b : Batch) : Prop where
  nodup : (b.members.map (·.1)).Nodup
  children : ∀ t, p.parent? t = some c ↔ t ∈ b.members.map (·.1)
  noted : ∀ t o, (t, o) ∈ b.outcomes ↔ p.parent? t = some c ∧ p.stage? t = some (.ended o)
  once : (b.outcomes.map (·.1)).Nodup
  member : ∀ t, p.parent? t = some c → ∃ s, p.stage? t = some s ∧ s.IsMember

/-- **What a teardown knows** about its removals. -/
structure DrainKept (p : Publisher) (c : Nat) (d : Drain) : Prop where
  children : ∀ t, p.parent? t = some c ↔ t ∈ d.removals.map (·.task)
  once : (d.removals.map (·.task)).Nodup
  removal : ∀ m ∈ d.removals, p.stage? m.task = some (.ofRemoval m)
  ends : ∀ m ∈ d.removals, ∀ o, m.outcome = some o → o = .done ∨ ∃ failure, o = .failed failure

/-- What a task at a stage knows about its parts. -/
def Kept (p : Publisher) (c : Nat) : Stage → Prop
  | .gathering b => BatchKept p c b
  | .draining d => DrainKept p c d
  | .ended _ => ∀ t, p.parent? t = some c → ∃ o, p.stage? t = some (.ended o)
  | _ => ∀ t, p.parent? t ≠ some c

/-- **Every task knows about its parts.** -/
def Kin (p : Publisher) : Prop := ∀ c s, p.stage? c = some s → p.Kept c s

/-! ## Changes that a batch or a teardown does not see -/

/-- The stage of a task is the same, or that of a publish under way before and after. -/
def Alike (p q : Publisher) (u : Nat) : Prop :=
  q.stage? u = p.stage? u ∨
    ∃ s s', p.stage? u = some s ∧ q.stage? u = some s' ∧ s.IsPending ∧ s'.IsPending

theorem Admits.alike (h : Admits p q u) : Alike p q u := by
  rcases h with h | ⟨o, d, h, h'⟩
  · exact .inl h
  · exact .inr ⟨_, _, h, h', trivial, trivial⟩

theorem Alike.ended_iff (h : Alike p q u) (o : Outcome) :
    q.stage? u = some (.ended o) ↔ p.stage? u = some (.ended o) := by
  rcases h with h | ⟨s, s', h, h', hs, hs'⟩
  · rw [h]
  · rw [h, h']
    constructor
    · intro he
      cases he
      exact hs'.elim
    · intro he
      cases he
      exact hs.elim

theorem BatchKept.mono (h : BatchKept p c b)
    (hparent : ∀ u, q.parent? u = some c ↔ p.parent? u = some c)
    (hstage : ∀ u, p.parent? u = some c → Alike p q u) : BatchKept q c b where
  nodup := h.nodup
  children u := (hparent u).trans (h.children u)
  noted u o := by
    rw [h.noted, hparent]
    exact and_congr_right fun hu => ((hstage u hu).ended_iff o).symm
  once := h.once
  member u hu := by
    have hu' := (hparent u).1 hu
    rcases hstage u hu' with he | ⟨s, s', -, hs', -, hpending⟩
    · rw [he]
      exact h.member u hu'
    · exact ⟨s', hs', hpending.isMember⟩

theorem DrainKept.mono (h : DrainKept p c d)
    (hparent : ∀ u, q.parent? u = some c ↔ p.parent? u = some c)
    (hstage : ∀ u, p.parent? u = some c → Alike p q u) : DrainKept q c d where
  children u := (hparent u).trans (h.children u)
  once := h.once
  removal m hm := by
    have hchild := (h.children m.task).2 (List.mem_map_of_mem hm)
    rcases hstage m.task hchild with he | ⟨s, s', hs, -, hpending, -⟩
    · rw [he]
      exact h.removal m hm
    · rw [h.removal m hm] at hs
      cases hs
      -- a task of a removal does not stand before its call
      rcases Stage.ofRemoval_cases m with he | ⟨o, he⟩
      · rw [he] at hpending
        exact hpending.elim
      · rw [he] at hpending
        exact hpending.elim
  ends := h.ends

theorem Kept.mono (h : p.Kept c s) (hparent : ∀ u, q.parent? u = some c ↔ p.parent? u = some c)
    (hstage : ∀ u, p.parent? u = some c → Alike p q u) : q.Kept c s := by
  cases s with
  | gathering b => exact BatchKept.mono h hparent hstage
  | draining d => exact DrainKept.mono h hparent hstage
  | ended o =>
    intro u hu
    have hu' := (hparent u).1 hu
    obtain ⟨o', ho'⟩ := h u hu'
    exact ⟨o', ((hstage u hu').ended_iff o').2 ho'⟩
  | _ => exact fun u hu => h u ((hparent u).1 hu)

theorem Kin.congr (h : p.Kin) (htasks : q.tasks = p.tasks) : q.Kin := by
  intro c s hs
  rw [stage?_congr htasks] at hs
  refine (h c s hs).mono (fun u => ?_) fun u _ => .inl (stage?_congr htasks u)
  rw [parent?_congr htasks]

/-! ## Who is a part of what -/

/-- A task at a stage without parts has none. -/
theorem Kin.no_parts (h : p.Kin) (ht : p.stage? t = some s) (hs : ¬ s.HasParts) (u : Nat) :
    p.parent? u ≠ some t := by
  have hkept := h t s ht
  cases s with
  | gathering | draining | ended => exact absurd trivial hs
  | _ => exact hkept u

/-- A part of a teardown stands where its removal says. -/
theorem DrainKept.part (h : DrainKept p c d) (hp : p.parent? t = some c) :
    ∃ m ∈ d.removals, m.task = t ∧ p.stage? t = some (.ofRemoval m) := by
  obtain ⟨m, hm, rfl⟩ := List.mem_map.1 ((h.children t).1 hp)
  exact ⟨m, hm, rfl, h.removal m hm⟩

/-- A task at any stage but the two of a removal is no part of a teardown. -/
theorem Kin.not_draining (h : p.Kin) (ht : p.stage? t = some s) (hu : ∀ g, s ≠ .unpublishing g)
    (he : ∀ o, s ≠ .ended o) (hp : p.parent? t = some c) : p.stage? c ≠ some (.draining d) := by
  intro hc
  have hkept : DrainKept p c d := h c _ hc
  obtain ⟨m, -, -, hstage⟩ := hkept.part hp
  obtain rfl := Option.some.inj (ht.symm.trans hstage)
  rcases Stage.ofRemoval_cases m with hm | ⟨o, hm⟩
  · exact hu _ hm
  · exact he o hm

/-- A task that is a part of another one publishes for a batch, unpublishes for a teardown, or has
ended. -/
theorem Kin.part_cases (h : p.Kin) (hroot : p.Rooted) (ht : p.stage? t = some s)
    (hc : p.parent? t = some c) :
    (∃ b, p.stage? c = some (.gathering b) ∧ s.IsMember) ∨
      (∃ d m, p.stage? c = some (.draining d) ∧ m ∈ d.removals ∧ m.task = t ∧ s = .ofRemoval m) ∨
      ∃ o, s = .ended o := by
  have hlt : c < p.tasks.length :=
    Nat.lt_trans (hroot t c hc) (lt_length_of_stage? ht)
  obtain ⟨sc, hsc⟩ : ∃ sc, p.stage? c = some sc := by
    cases hsc : p.stage? c with
    | none => simp [stage?] at hsc; omega
    | some sc => exact ⟨sc, rfl⟩
  have hkept := h c sc hsc
  cases sc with
  | gathering b =>
    obtain ⟨s', hs', hmember⟩ := hkept.member t hc
    rw [ht] at hs'
    cases hs'
    exact .inl ⟨b, hsc, hmember⟩
  | draining d =>
    obtain ⟨m, hm, hmt, hs'⟩ := DrainKept.part hkept hc
    rw [ht] at hs'
    exact .inr (.inl ⟨d, m, hsc, hm, hmt, Option.some.inj hs'⟩)
  | ended o =>
    obtain ⟨o', ho'⟩ := hkept t hc
    rw [ht] at ho'
    exact .inr (.inr ⟨o', Option.some.inj ho'⟩)
  | _ => exact absurd hc (hkept t)

/-- A task at any other stage is a part of nothing. -/
theorem Kin.orphan (h : p.Kin) (hroot : p.Rooted) (ht : p.stage? t = some s)
    (hm : ¬ s.IsMember) (hu : ∀ g, s ≠ .unpublishing g) (he : ∀ o, s ≠ .ended o) :
    p.parent? t = none := by
  cases hc : p.parent? t with
  | none => rfl
  | some c =>
    exfalso
    rcases h.part_cases hroot ht hc with ⟨-, -, hmember⟩ | ⟨d, -, hd, -, -, -⟩ | ⟨o, hs⟩
    · exact hm hmember
    · exact h.not_draining ht hu he hc hd
    · exact he o hs

/-! ## One change at a time -/

/-- A task that is a part of nothing changes its stage. -/
theorem Kin.setStage (h : p.Kin) (ht : p.stage? t = some s) (hp : p.parent? t = none) (s' : Stage)
    (hkept : (p.setStage t s').Kept t s') : (p.setStage t s').Kin := by
  intro c sc hsc
  by_cases hct : c = t
  · subst hct
    rw [stage?_setStage_self ht] at hsc
    cases hsc
    exact hkept
  · rw [stage?_setStage_of_ne hct] at hsc
    refine (h c sc hsc).mono (fun u => by rw [parent?_setStage]) fun u hu => ?_
    refine .inl (stage?_setStage_of_ne fun hut => ?_)
    rw [hut, hp] at hu
    cases hu

/-- A task without parts that is a part of nothing comes to another stage without parts. -/
theorem Kin.setStage_plain (h : p.Kin) (ht : p.stage? t = some s) (hp : p.parent? t = none)
    (hs : ¬ s.HasParts) (s' : Stage) (hs' : ¬ s'.HasParts) : (p.setStage t s').Kin := by
  refine h.setStage ht hp s' ?_
  have hno : ∀ u, (p.setStage t s').parent? u ≠ some t := fun u => by
    rw [parent?_setStage]
    exact h.no_parts ht hs u
  cases s' with
  | gathering | draining | ended => exact absurd trivial hs'
  | _ => exact hno

/-- A publish that is under way stays under way. -/
theorem Kin.setStage_pending (h : p.Kin) (ht : p.stage? t = some s) (hs : s.IsPending)
    (s' : Stage) (hs' : s'.IsPending) : (p.setStage t s').Kin := by
  intro c sc hsc
  have halike : ∀ u, Alike p (p.setStage t s') u := fun u => by
    by_cases hut : u = t
    · subst hut
      exact .inr ⟨s, s', ht, stage?_setStage_self ht, hs, hs'⟩
    · exact .inl (stage?_setStage_of_ne hut)
  by_cases hct : c = t
  · subst hct
    rw [stage?_setStage_self ht] at hsc
    cases hsc
    have hno : ∀ u, (p.setStage c s').parent? u ≠ some c := fun u => by
      rw [parent?_setStage]
      exact h.no_parts ht hs.no_parts u
    cases s' with
    | gathering | draining | ended => exact hs'.elim
    | _ => exact hno
  · rw [stage?_setStage_of_ne hct] at hsc
    exact (h c sc hsc).mono (fun u => by rw [parent?_setStage]) fun u _ => halike u

/-- A batch may change everything but what it knows about its members. -/
theorem Kin.setStage_batch (h : p.Kin) (hroot : p.Rooted) (ht : p.stage? t = some (.gathering b))
    (b' : Batch) (hm : b'.members = b.members)
    (ho : b'.outcomes = b.outcomes) : (p.setStage t (.gathering b')).Kin := by
  have hp := h.orphan hroot ht id (by simp) (by simp)
  have hkept : BatchKept p t b := h t _ ht
  have hkept' : BatchKept p t b' :=
    ⟨hm ▸ hkept.nodup, hm ▸ hkept.children, ho ▸ hkept.noted, ho ▸ hkept.once, hkept.member⟩
  refine h.setStage ht hp _ (hkept'.mono (fun u => by rw [parent?_setStage]) fun u hu => ?_)
  refine .inl (stage?_setStage_of_ne fun hut => ?_)
  rw [hut, hp] at hu
  cases hu

/-! ## The end of a task -/

/-- A task that ends is told of to the one that it is a part of. -/
theorem Kin.told {sc : Stage} (h : p.Kin) (hparent : ∀ u, q.parent? u = p.parent? u)
    (ht : p.stage? t = some s) (hs : ¬ s.HasParts) (hp : p.parent? t = some c)
    (hc : p.parent? c = none) (hqt : q.stage? t = some (.ended o)) (hqc : q.stage? c = some sc)
    (hkept : q.Kept c sc) (hu : ∀ u, u ≠ t → u ≠ c → Admits p q u) : q.Kin := by
  intro v sv hsv
  by_cases hvt : v = t
  · subst hvt
    rw [hqt] at hsv
    cases hsv
    intro u hchild
    rw [hparent] at hchild
    exact absurd hchild (h.no_parts ht hs u)
  · by_cases hvc : v = c
    · subst hvc
      rw [hqc] at hsv
      cases hsv
      exact hkept
    · have hchild : ∀ u, p.parent? u = some v → Alike p q u := fun u hpu => by
        refine (hu u (fun hut => ?_) (fun huc => ?_)).alike
        · rw [hut, hp] at hpu
          exact hvc (Option.some.inj hpu).symm
        · rw [huc, hc] at hpu
          cases hpu
      rcases hu v hvt hvc with he | ⟨o', d', he, he'⟩
      · rw [he] at hsv
        exact (h v sv hsv).mono (fun u => by rw [hparent]) hchild
      · rw [he'] at hsv
        cases hsv
        intro u hpu
        rw [hparent] at hpu
        exact h.no_parts he id u hpu

/-- A batch that notes the end of a member knows about its members again. -/
theorem BatchKept.note {b' : Batch} (h : BatchKept p c b) (ht : p.stage? t = some s)
    (hended : ∀ o, s ≠ .ended o) (hp : p.parent? t = some c) (hm : b'.members = b.members)
    (ho : b'.outcomes = b.outcomes ++ [(t, o)]) (hparent : ∀ u, q.parent? u = p.parent? u)
    (hqt : q.stage? t = some (.ended o)) (hmember : (Stage.ended o).IsMember)
    (hu : ∀ u, u ≠ t → p.parent? u = some c → Alike p q u) : BatchKept q c b' := by
  -- nothing was noted of `t` before, as it had not ended
  have hnew : t ∉ b.outcomes.map (·.1) := fun hmem => by
    obtain ⟨⟨t', o'⟩, hin, rfl⟩ := List.mem_map.1 hmem
    have hstage := ((h.noted t' o').1 hin).2
    rw [ht] at hstage
    exact hended o' (Option.some.inj hstage)
  refine ⟨hm ▸ h.nodup, fun u => ?_, fun u o' => ?_, ?_, fun u hpu => ?_⟩
  · rw [hparent, hm]
    exact h.children u
  · rw [ho, List.mem_append, List.mem_singleton, h.noted, hparent]
    by_cases hut : u = t
    · subst hut
      rw [ht, hqt]
      constructor
      · rintro (⟨-, he⟩ | he)
        · exact absurd (Option.some.inj he) (hended o')
        · cases he
          exact ⟨hp, rfl⟩
      · rintro ⟨-, he⟩
        cases he
        exact .inr rfl
    · constructor
      · rintro (⟨hpu, hs⟩ | he)
        · exact ⟨hpu, ((hu u hut hpu).ended_iff o').2 hs⟩
        · cases he
          exact absurd rfl hut
      · rintro ⟨hpu, hs⟩
        exact .inl ⟨hpu, ((hu u hut hpu).ended_iff o').1 hs⟩
  · rw [ho, List.map_append]
    exact List.nodup_append.2 ⟨h.once, by simp, fun u hmem u' hu' he => by
      rw [List.map_singleton, List.mem_singleton] at hu'
      rw [he, hu'] at hmem
      exact hnew hmem⟩
  · rw [hparent] at hpu
    by_cases hut : u = t
    · subst hut
      exact ⟨_, hqt, hmember⟩
    · rcases hu u hut hpu with he | ⟨s₀, s', -, hs', -, hpending⟩
      · rw [he]
        exact h.member u hpu
      · exact ⟨s', hs', hpending.isMember⟩

/-- A teardown that notes the end of a removal knows about its removals again. -/
theorem DrainKept.note (h : DrainKept p c d)
    (ho : o = .done ∨ ∃ failure, o = .failed failure) (hparent : ∀ u, q.parent? u = p.parent? u)
    (hqt : q.stage? t = some (.ended o))
    (hu : ∀ u, u ≠ t → p.parent? u = some c → q.stage? u = p.stage? u) :
    DrainKept q c (d.note t o) := by
  have htasks : (d.note t o).removals.map (·.task) = d.removals.map (·.task) :=
    d.map_removals_note t o _ fun _ _ => rfl
  refine ⟨fun u => ?_, htasks ▸ h.once, fun m hm => ?_, fun m hm o' ho' => ?_⟩
  · rw [hparent, htasks]
    exact h.children u
  · obtain ⟨m₀, hm₀, htask, ⟨he, hout⟩ | ⟨hne, rfl⟩⟩ := Drain.mem_removals_note hm
    · rw [he, hqt, Stage.ofRemoval, hout]
    · rw [hu m.task hne ((h.children _).2 (List.mem_map_of_mem hm₀))]
      exact h.removal m hm₀
  · obtain ⟨m₀, hm₀, htask, ⟨he, hout⟩ | ⟨hne, rfl⟩⟩ := Drain.mem_removals_note hm
    · rw [hout] at ho'
      exact Option.some.inj ho' ▸ ho
    · exact h.ends m hm₀ o' ho'

/-- When a teardown is complete, all of its removals have ended. -/
theorem DrainKept.ended (h : DrainKept p c d) (hd : d.isComplete = true) (ht : p.parent? t = some c) :
    ∃ o, p.stage? t = some (.ended o) := by
  obtain ⟨m, hm, rfl⟩ := List.mem_map.1 ((h.children t).1 ht)
  have hsome := List.all_eq_true.1 (Bool.and_eq_true_iff.1 hd).2 m hm
  obtain ⟨o, ho⟩ := Option.isSome_iff_exists.1 hsome
  refine ⟨o, ?_⟩
  rw [h.removal m hm, Stage.ofRemoval, ho]

/-- When a batch is complete, it has noted all of its members. -/
theorem BatchKept.perm_of_isComplete (h : BatchKept p c b) (hb : b.isComplete = true) :
    (b.outcomes.map (·.1)).Perm (b.members.map (·.1)) := by
  have hlen : b.members.length ≤ b.outcomes.length := (beq_iff_eq.1 hb).ge
  have hsub : b.outcomes.map (·.1) ⊆ b.members.map (·.1) := fun u hu => by
    obtain ⟨⟨u', o⟩, hin, rfl⟩ := List.mem_map.1 hu
    exact (h.children _).1 ((h.noted _ _).1 hin).1
  exact (List.subperm_of_subset h.once hsub).perm_of_length_le (by simpa using hlen)

/-- When a batch is complete, all of its members have ended. -/
theorem BatchKept.ended (h : BatchKept p c b) (hb : b.isComplete = true) (ht : p.parent? t = some c) :
    ∃ o, (t, o) ∈ b.outcomes ∧ p.stage? t = some (.ended o) := by
  have hmem := (h.perm_of_isComplete hb).mem_iff.2 ((h.children t).1 ht)
  obtain ⟨⟨u, o⟩, hin, rfl⟩ := List.mem_map.1 hmem
  exact ⟨o, hin, ((h.noted _ _).1 hin).2⟩

/-- A part of a teardown ends done or with a failure. -/
theorem Kin.removal_ends (h : p.Kin) (ht : p.stage? t = some s) (hended : ∀ o, s ≠ .ended o)
    (hn : s.Next (.ended o)) (hp : p.parent? t = some c) (hd : p.stage? c = some (.draining d)) :
    o = .done ∨ ∃ failure, o = .failed failure := by
  obtain ⟨m, -, -, hstage⟩ := DrainKept.part (h c _ hd) hp
  obtain rfl := Option.some.inj (ht.symm.trans hstage)
  rcases Stage.ofRemoval_cases m with hm | ⟨o', hm⟩
  · rw [hm] at hn
    cases hn with
    | answered g outcome ho => exact ho
  · exact absurd hm (hended o')

/-- **The end of a task** leaves everybody knowing about their parts. -/
theorem Kin.finish (h : p.Kin) (hroot : p.Rooted) (ht : p.stage? t = some s) (hs : ¬ s.HasParts)
    (hn : s.Next (.ended o)) : (p.finish t o).Kin := by
  have hself : p.parent? t ≠ some t := hroot.ne_self t
  have hended : ∀ o, s ≠ .ended o := fun o he => hs (he ▸ trivial)
  have apart : ∀ {u c}, p.parent? u = some c → u ≠ c := fun hpu huc =>
    hroot.ne_self _ (huc ▸ hpu)
  cases finished_finish hself ht o with
  | alone hp hq =>
    have hnone : p.parent? t = none := by
      cases hc : p.parent? t with
      | none => rfl
      | some c =>
        rcases h.part_cases hroot ht hc with ⟨b, hb, -⟩ | ⟨d, m, hd, -, -, -⟩ | ⟨o', ho'⟩
        · exact absurd hb ((hp c hc).1 b)
        · exact absurd hd ((hp c hc).2 d)
        · exact absurd ho' (hended o')
    rw [hq]
    refine h.setStage ht hnone _ fun u hu => ?_
    rw [parent?_setStage] at hu
    exact absurd hu (h.no_parts ht hs u)
  | noted c b b' hp hb hnoted hqc hqt hu hq =>
    have hkept : BatchKept p c b := h c _ hb
    have hc := h.orphan hroot hb id (by simp) (by simp)
    obtain ⟨s₀, hs₀, hmember⟩ := hkept.member t hp
    rw [ht] at hs₀
    cases hs₀
    refine h.told hq.parent ht hs hp hc hqt hqc ?_ hu
    exact hkept.note ht hended hp hnoted.members hnoted.outcomes hq.parent hqt
      (hmember.ended hn) fun u hut hpu => (hu u hut (apart hpu)).alike
  | drained c d hp hd hopen hq =>
    have hne : c ≠ t := (apart hp).symm
    have hc := h.orphan hroot hd id (by simp) (by simp)
    have hout := h.removal_ends ht hended hn hp hd
    have hqt : (p.finish t o).stage? t = some (.ended o) := by
      rw [hq, stage?_setStage_of_ne hne.symm, stage?_setStage_self ht]
    have hqc : (p.finish t o).stage? c = some (.draining (d.note t o)) := by
      rw [hq, stage?_setStage_self ((stage?_setStage_of_ne hne).trans hd)]
    have hu : ∀ u, u ≠ t → u ≠ c → (p.finish t o).stage? u = p.stage? u := fun u hut huc => by
      rw [hq, stage?_setStage_of_ne huc, stage?_setStage_of_ne hut]
    have hparent : ∀ u, (p.finish t o).parent? u = p.parent? u := fun u => by
      rw [hq, parent?_setStage, parent?_setStage]
    refine h.told hparent ht hs hp hc hqt hqc ?_ fun u hut huc => .inl (hu u hut huc)
    exact DrainKept.note (h c _ hd) hout hparent hqt fun u hut hpu => hu u hut (apart hpu)
  | released c d hp hd hdone hq =>
    have hne : c ≠ t := (apart hp).symm
    have hc := h.orphan hroot hd id (by simp) (by simp)
    have hout := h.removal_ends ht hended hn hp hd
    have hqt : (p.finish t o).stage? t = some (.ended o) := by
      rw [hq, stage?_setStage_of_ne hne.symm, stage?_congr (tasks_withRegistrar ..),
        stage?_setStage_self ht]
    have hqc : (p.finish t o).stage? c = some (.ended (d.note t o).outcome) := by
      rw [hq, stage?_setStage_self (s := .draining d)]
      rw [stage?_congr (tasks_withRegistrar ..), stage?_setStage_of_ne hne, hd]
    have hu : ∀ u, u ≠ t → u ≠ c → (p.finish t o).stage? u = p.stage? u := fun u hut huc => by
      rw [hq, stage?_setStage_of_ne huc, stage?_congr (tasks_withRegistrar ..),
        stage?_setStage_of_ne hut]
    have hparent : ∀ u, (p.finish t o).parent? u = p.parent? u := fun u => by
      rw [hq, parent?_setStage, parent?_congr (tasks_withRegistrar ..), parent?_setStage]
    have hkept : DrainKept (p.finish t o) c (d.note t o) :=
      DrainKept.note (h c _ hd) hout hparent hqt fun u hut hpu => hu u hut (apart hpu)
    -- the teardown ends with its last part, and so has no part that has not ended
    exact h.told hparent ht hs hp hc hqt hqc (fun u hpu => hkept.ended hdone hpu)
      fun u hut huc => .inl (hu u hut huc)

/-! ## New tasks -/

/-- New tasks are no parts of the others, and have none. -/
theorem Kin.append {ts : List Task} (h : p.Kin) (hroot : p.Rooted)
    (hq : q.tasks = p.tasks ++ ts) (whole : Option Nat)
    (hts : ∀ task ∈ ts, task.parent = whole ∧ ¬ task.stage.HasParts)
    (hsc : q.stage? c = some s) (hc : whole ≠ some c) : q.Kept c s := by
  have hold : ∀ u, q.parent? u = some c → p.parent? u = some c ∧ u < p.tasks.length := by
    intro u hu
    rw [parent?_append hq] at hu
    split at hu
    · rename_i hlt
      exact ⟨hu, hlt⟩
    · obtain ⟨task, htask, hp⟩ := Option.bind_eq_some_iff.1 hu
      exact absurd ((hts task (List.mem_of_getElem? htask)).1.symm.trans hp) hc
  by_cases hlt : c < p.tasks.length
  · have hsame : q.stage? c = p.stage? c := by rw [stage?_append hq, if_pos hlt]
    rw [hsame] at hsc
    refine (h c s hsc).mono (fun u => ⟨fun hu => (hold u hu).1, fun hu => ?_⟩) fun u hu => .inl ?_
    · have hlu : u < p.tasks.length := by
        unfold parent? at hu
        obtain ⟨task, htask, -⟩ := Option.bind_eq_some_iff.1 hu
        exact (List.getElem?_eq_some_iff.1 htask).1
      rw [parent?_append hq, if_pos hlu, hu]
    · have hlu : u < p.tasks.length := by
        unfold parent? at hu
        obtain ⟨task, htask, -⟩ := Option.bind_eq_some_iff.1 hu
        exact (List.getElem?_eq_some_iff.1 htask).1
      rw [stage?_append hq, if_pos hlu]
  · -- a new task has no parts: a part comes after the whole, and all of them are old
    have hno : ∀ u, q.parent? u ≠ some c := fun u hu => by
      have hlu := hroot u c (hold u hu).1
      have := (hold u hu).2
      omega
    rw [stage?_append hq, if_neg hlt] at hsc
    obtain ⟨task, htask, rfl⟩ := Option.map_eq_some_iff.1 hsc
    have hparts := (hts task (List.mem_of_getElem? htask)).2
    cases hstage : task.stage with
    | gathering | draining | ended =>
      rw [hstage] at hparts
      exact absurd trivial hparts
    | _ => exact hno

/-- A task comes to a stage with parts that are new. -/
theorem Kin.grow (h : p.Kin) (hroot : p.Rooted) (ht : p.stage? t = some s)
    (hp : p.parent? t = none) (ts : List Task) (s' : Stage)
    (hts : ∀ task ∈ ts, task.parent = some t ∧ ¬ task.stage.HasParts)
    (hkept : ({ p with tasks := p.tasks ++ ts }.setStage t s').Kept t s') :
    ({ p with tasks := p.tasks ++ ts }.setStage t s').Kin := by
  intro c sc hsc
  by_cases hct : c = t
  · subst hct
    rw [stage?_setStage_self (stage?_append_of_some (p := p) rfl ht)] at hsc
    cases hsc
    exact hkept
  · rw [stage?_setStage_of_ne hct] at hsc
    have hc : some t ≠ some c := fun he => hct (Option.some.inj he).symm
    refine (h.append hroot rfl _ hts hsc hc).mono (fun u => by rw [parent?_setStage])
      fun u hu => .inl (stage?_setStage_of_ne fun hut => ?_)
    rw [hut, parent?_append (p := p) rfl, if_pos (lt_length_of_stage? ht), hp] at hu
    cases hu

/-- A batch that begins knows about its members. -/
theorem Kin.batchKept (h : p.Kin) {o : RegistryOptions} {ds : List Definition}
    (ht : p.stage? t = some (.asked (.publishAll o ds))) (o' : RegistryOptions) :
    BatchKept (p.withBatch t o' ds) t (p.newBatch o' ds) := by
  have hnames : (p.newBatch o' ds).members.map (·.1) = List.range' p.tasks.length ds.length :=
    List.map_fst_zip (by simp)
  -- its parts are the new tasks, since it had none
  have hparent : ∀ u, (p.withBatch t o' ds).parent? u = some t ↔
      u ∈ List.range' p.tasks.length ds.length := by
    intro u
    rw [withBatch, parent?_setStage, parent?_append (p := p) rfl, List.mem_range'_1]
    split
    · rename_i hlt
      have hno := h.no_parts ht id u
      constructor
      · exact fun hu => absurd hu hno
      · omega
    · rename_i hge
      simp only [memberTasks, List.getElem?_map]
      cases hd : ds[u - p.tasks.length]? with
      | none =>
        have := List.getElem?_eq_none_iff.1 hd
        simp only [Option.map_none, Option.bind_none, reduceCtorEq, false_iff]
        omega
      | some d =>
        have := (List.getElem?_eq_some_iff.1 hd).1
        simp only [Option.map_some, Option.bind_some, true_iff]
        omega
  have hstage : ∀ u, (p.withBatch t o' ds).parent? u = some t →
      ∃ d, (p.withBatch t o' ds).stage? u = some (.asked (.publish o' d)) := by
    intro u hu
    have hmem := List.mem_range'_1.1 ((hparent u).1 hu)
    have hne : u ≠ t := by
      have := lt_length_of_stage? ht
      omega
    have hlt : u - p.tasks.length < ds.length := by omega
    refine ⟨ds[u - p.tasks.length], ?_⟩
    rw [withBatch, stage?_setStage_of_ne hne, stage?_append (p := p) rfl,
      if_neg (Nat.not_lt.2 hmem.1)]
    simp [memberTasks, hlt]
  refine ⟨?_, fun u => by rw [hnames]; exact hparent u, fun u outcome => ?_, List.nodup_nil,
    fun u hu => ?_⟩
  · rw [hnames]
    exact List.nodup_range'
  · -- nothing is noted yet, and no member has ended
    constructor
    · intro hmem
      cases hmem
    · rintro ⟨hu, hended⟩
      obtain ⟨d, hd⟩ := hstage u hu
      rw [hd] at hended
      cases hended
  · obtain ⟨d, hd⟩ := hstage u hu
    exact ⟨_, hd, trivial⟩

/-- A teardown that takes up a registration knows about its removals again. -/
theorem Kin.drainKept (h : p.Kin) (ht : p.stage? t = some (.draining d))
    (g : Registration) (rest : List Registration) :
    DrainKept (p.withRemoval t d g rest) t
      { rest, removals := d.removals ++ [⟨p.tasks.length, g, none⟩] } := by
  have hkept : DrainKept p t d := h t _ ht
  have hlt := lt_length_of_stage? ht
  have hold : ∀ m ∈ d.removals, m.task < p.tasks.length := fun m hm =>
    lt_length_of_stage? (hkept.removal m hm)
  refine ⟨fun u => ?_, ?_, fun m hm => ?_, fun m hm o ho => ?_⟩
  · rw [parent?_withRemoval, List.map_append, List.mem_append, ← hkept.children u]
    split
    · rename_i hu
      simp [hu]
    · rename_i hu
      simp [hu]
  · rw [List.map_append]
    refine List.nodup_append.2 ⟨hkept.once, by simp, fun u hu u' hu' he => ?_⟩
    obtain ⟨m, hm, rfl⟩ := List.mem_map.1 hu
    have hm' := hold m hm
    simp only [List.map_cons, List.map_nil, List.mem_singleton] at hu'
    omega
  · rcases List.mem_append.1 hm with hm | hm
    · -- an earlier removal is not the teardown itself, whose stage changes
      have hne : m.task ≠ t := fun he => by
        have hstage := hkept.removal m hm
        rw [he, ht] at hstage
        rcases Stage.ofRemoval_cases m with hm' | ⟨o, hm'⟩
        · rw [hm'] at hstage
          cases hstage
        · rw [hm'] at hstage
          cases hstage
      rw [withRemoval, stage?_setStage_of_ne hne, stage?_append (p := p) rfl, if_pos (hold m hm)]
      exact hkept.removal m hm
    · rw [List.mem_singleton.1 hm]
      exact stage?_withRemoval_new d g rest hlt
  · rcases List.mem_append.1 hm with hm | hm
    · exact hkept.ends m hm o ho
    · rw [List.mem_singleton.1 hm] at ho
      cases ho

/-! ## Steps, replies and moves -/

theorem kin_fresh (id : String) (listening : Bool) (limit : Option Nat) :
    (fresh id listening limit).Kin := by
  intro c s hs
  simp [fresh, stage?] at hs

theorem Kin.ask (h : p.Kin) (hsound : p.Sound) (request : Request) : (p.ask request).Kin :=
  fun _ _ hs => h.append hsound.parents (tasks_ask p request) none
    (by simp [Stage.HasParts]) hs (by simp)

/-- **A step** leaves everybody knowing about their parts. -/
theorem Kin.step (h : p.Kin) (hsound : p.Sound) (hs : Step t p q) : q.Kin := by
  cases hs with
  | turn ready => exact h.congr rfl
  | giveUp b ht => exact h.setStage_batch hsound.parents ht { b with abandoned := true } rfl rfl
  | queue o d c b ht hp hb h0 =>
    have hne : t ≠ c := fun he => by rw [← he, ht] at hb; cases hb
    have hbatch := h.setStage_batch hsound.parents hb { b with queue := b.queue ++ [t] } rfl rfl
    exact hbatch.setStage_pending ((stage?_setStage_of_ne hne).trans ht) trivial _ trivial
  | grant o d c b n ht hp hb hn =>
    have hne : t ≠ c := fun he => by rw [← he, ht] at hb; cases hb
    have hbatch := h.setStage_batch hsound.parents hb { b with permits := some n } rfl rfl
    exact hbatch.setStage_pending ((stage?_setStage_of_ne hne).trans ht) trivial _ trivial
  | permit o d ht hfree => exact h.setStage_pending ht trivial _ trivial
  | refuse o d failure ht => exact h.finish hsound.parents ht id (.refuse o d failure)
  | reserve o o' d k r ht ho hd hr =>
    exact (h.setStage_pending ht trivial
      (.publishing k (r.handleFor o').1 (d.stamp r.publisher)) trivial).congr rfl
  | refuseBatch o ds outcome ht ho => exact h.finish hsound.parents ht id (.refuseBatch o ds outcome ho)
  | beginBatch o o' ds ht hne ho =>
    have hp := h.orphan hsound.parents ht id (by simp) (by simp)
    refine Kin.congr (h.grow hsound.parents ht hp (memberTasks t o' ds)
      (.gathering (p.newBatch o' ds)) (fun task htask => ?_) (h.batchKept ht o')) rfl
    obtain ⟨d, -, rfl⟩ := List.mem_map.1 htask
    exact ⟨rfl, id⟩
  | gather b ht hb ha =>
    have hp := h.orphan hsound.parents ht id (by simp) (by simp)
    refine h.setStage ht hp _ fun u hu => ?_
    rw [parent?_setStage] at hu
    obtain ⟨o, -, ho⟩ := BatchKept.ended (h t _ ht) hb hu
    have hne : u ≠ t := fun he => by rw [he, hp] at hu; cases hu
    exact ⟨o, (stage?_setStage_of_ne hne).trans ho⟩
  | unpublish g ht =>
    have hp := h.orphan hsound.parents ht id (by simp) (by simp)
    exact (h.setStage_plain ht hp id (.unpublishing g) id).congr rfl
  | tryPublish g d ht =>
    have hp := h.orphan hsound.parents ht id (by simp) (by simp)
    exact (h.setStage_plain ht hp id (.tryingPublish g d) id).congr rfl
  | tryUnpublish g ht =>
    have hp := h.orphan hsound.parents ht id (by simp) (by simp)
    exact (h.setStage_plain ht hp id (.tryingUnpublish g) id).congr rfl
  | closeAgain td ht hc => exact h.finish hsound.parents ht id (.closeAgain td)
  | close td ht hc =>
    have hp := h.orphan hsound.parents ht id (by simp) (by simp)
    exact (h.setStage_plain ht hp id (.waiting td) id).congr rfl
  | release td outcome ht h0 ho =>
    have hnone : outcome.registration? = none := by
      rcases ho with ⟨-, -, rfl⟩ | ⟨_, _, n, parts, -, rfl⟩
      · rfl
      · unfold Outcome.ofRemovals
        split <;> rfl
    have hreleased : (p.withRegistrar p.registrar.release).Kin := h.congr rfl
    exact hreleased.finish hsound.parents ht id (.release td outcome hnone)
  | drain ht h0 hne =>
    have hp := h.orphan hsound.parents ht id (by simp) (by simp)
    have hready : ({ p with ready := t :: p.ready } : Publisher).Kin := h.congr rfl
    refine hready.setStage ht hp _ ⟨fun u => ?_, List.nodup_nil, by simp, by simp⟩
    rw [parent?_setStage]
    exact ⟨fun hu => absurd hu (h.no_parts ht id u), fun hu => by cases hu⟩
  | take d g rest ready ht hr =>
    have hp := h.orphan hsound.parents ht id (by simp) (by simp)
    refine Kin.congr (h.grow hsound.parents ht hp [{ stage := .unpublishing g, parent := some t }]
      (.draining { rest, removals := d.removals ++ [⟨p.tasks.length, g, none⟩] }) ?_
      (h.drainKept ht g rest)) rfl
    simp [Stage.HasParts]

/-- **A reply** leaves everybody knowing about their parts. -/
theorem Kin.reply (h : p.Kin) (hsound : p.Sound) (hs : Reply t p q) : q.Kin := by
  have told : ∀ {p' : Publisher} {s : Stage} {o : Outcome}, p'.tasks = p.tasks →
      p.stage? t = some s → ¬ s.HasParts → s.Next (.ended o) → (p'.finish t o).Kin := by
    intro p' s o htasks ht hs hn
    have hroot : p'.Rooted := fun u c hu => hsound.parents u c (by rwa [parent?_congr htasks] at hu)
    exact (h.congr htasks).finish hroot ((stage?_congr htasks t).trans ht) hs hn
  cases hs with
  | commit k g d record ht => exact told (by simp) ht id (.commit k g d _ rfl rfl)
  | lose k g d outcome ht ho =>
    exact told (by simp) ht id (.lose k g d outcome (ho.imp (fun ⟨_, he⟩ => ⟨_, he⟩) id))
  | remove g ht => exact told (by simp) ht id (.answered g _ (.inl rfl))
  | keep g cause ht => exact told rfl ht id (.answered g _ (.inr ⟨_, rfl⟩))
  | tried s outcome ht hs ho =>
    rcases hs with ⟨g, d, rfl⟩ | ⟨g, rfl⟩
    · exact told rfl ht id (.triedPublish g d outcome ho)
    · exact told rfl ht id (.triedUnpublish g outcome ho)

/-- **A move** leaves everybody knowing about their parts. -/
theorem Kin.move (h : p.Kin) (hsound : p.Sound) (m : Move) : (p.move m).Kin := by
  have hboth : (p.move m).Sound ∧ (p.move m).Kin := by
    refine move_induction (P := fun q => q.Sound ∧ q.Kin) m ?_ ?_ ?_ ?_ ⟨hsound, h⟩
    · exact fun request _ => ⟨hsound.ask request, h.ask hsound request⟩
    · exact fun _ _ _ hs ⟨hq, hkin⟩ => ⟨hq.step hs, hkin.step hq hs⟩
    · exact fun _ _ hs => ⟨hsound.reply hs, h.reply hsound hs⟩
    · exact fun hm => ⟨hsound.direct hm, h.congr (tasks_of_isDirect p hm)⟩
  exact hboth.2

/-- **At all times** everybody knows about their parts. -/
theorem Kin.moves (h : p.Kin) (hsound : p.Sound) (ms : List Move) : (p.moves ms).Kin := by
  induction ms generalizing p with
  | nil => exact h
  | cons m ms ih => exact ih (h.move hsound m) (hsound.move m)

end Publisher
end SchemaHerald
