import SchemaHerald.Proofs.Commitments

/-!
# A teardown from its first call to its end

`TearsDown p c gs` says how far task `c` has come with taking back the registrations `gs`: it has had
the registry called for those that it has taken up, each once and in order, and when it has ended it
has had it called for all of them and nothing is left in the registrar. It starts in
the turn of a task that waits (`Owned.waiting_steps`), and `TearsDown.move` says that it goes on.
-/
namespace SchemaHerald.Publisher

open Relation

variable {p q : Publisher} {t u c : Nat} {s s' : Stage} {o : Outcome} {g : Registration}
  {gs : List Registration}

/-! ## The calls of a task and of its parts -/

/-- The registration that an entry is a call to unpublish, if the call is of task `c` or of a part of
it. -/
def callOf? (p : Publisher) (c : Nat) : Entry → Option Registration
  | .unpublishCall t g => if t = c ∨ p.parent? t = some c then some g else none
  | _ => none

/-- **The registrations that a task and its parts called to unpublish**, the first one standing
first. -/
def callsBy (p : Publisher) (c : Nat) : List Registration :=
  p.journal.reverse.filterMap (p.callOf? c)

/-- A task that has called to unpublish waits for the answer or has ended. -/
def Called (p : Publisher) : Prop :=
  ∀ t g, .unpublishCall t g ∈ p.journal →
    ∃ s, p.stage? t = some s ∧ (s = .unpublishing g ∨ ∃ o, s = .ended o)

theorem callsBy_cons {e : Entry} (hq : q.journal = e :: p.journal)
    (hparent : ∀ t g, .unpublishCall t g ∈ p.journal → (q.parent? t = some c ↔ p.parent? t = some c)) :
    q.callsBy c = p.callsBy c ++ (q.callOf? c e).toList := by
  rw [callsBy, hq, List.reverse_cons, List.filterMap_append]
  congr 1
  · refine List.filterMap_congr fun e he => ?_
    cases e with
    | unpublishCall t g =>
      have hiff := hparent t g (List.mem_reverse.1 he)
      simp only [callOf?, hiff]
    | _ => rfl

theorem callsBy_congr (hq : q.journal = p.journal)
    (hparent : ∀ t g, .unpublishCall t g ∈ p.journal → (q.parent? t = some c ↔ p.parent? t = some c)) :
    q.callsBy c = p.callsBy c := by
  rw [callsBy, hq]
  refine List.filterMap_congr fun e he => ?_
  cases e with
  | unpublishCall t g =>
    have hiff := hparent t g (List.mem_reverse.1 he)
    simp only [callOf?, hiff]
  | _ => rfl

/-- What a step lets be seen: nothing, a call to publish, a call of the task to unpublish, or one of
a new part of it. -/
theorem journal_step (hs : Step t p q) :
    q.journal = p.journal ∨ (∃ h d, q.journal = .publishCall t h d :: p.journal) ∨
      (∃ g, q.journal = .unpublishCall t g :: p.journal ∧
        (p.stage? t = some (.asked (.unpublish g)) ∨ p.stage? t = some (.asked (.tryUnpublish g)))) ∨
      ∃ d g rest, q.journal = .unpublishCall p.tasks.length g :: p.journal ∧
        p.stage? t = some (.draining d) ∧ d.rest = g :: rest ∧
        q.tasks = (p.withRemoval t d g rest).tasks := by
  cases hs with
  | refuse | refuseBatch | closeAgain | release => exact .inl (by simp)
  | reserve => exact .inr (.inl ⟨_, _, rfl⟩)
  | tryPublish g d ht => exact .inr (.inl ⟨g, d, rfl⟩)
  | unpublish g ht => exact .inr (.inr (.inl ⟨g, rfl, .inl ht⟩))
  | tryUnpublish g ht => exact .inr (.inr (.inl ⟨g, rfl, .inr ht⟩))
  | take d g rest ready ht hr => exact .inr (.inr (.inr ⟨d, g, rest, rfl, ht, hr, rfl⟩))
  | _ => exact .inl rfl

/-- Who waits for the answer to an unpublish, or has ended, does so still or ends. -/
theorem Advances.called {g : Registration} (ha : Advances p q u)
    (hs : ∃ s, p.stage? u = some s ∧ (s = .unpublishing g ∨ ∃ o, s = .ended o)) :
    ∃ s, q.stage? u = some s ∧ (s = .unpublishing g ∨ ∃ o, s = .ended o) := by
  obtain ⟨s, hs, hcases⟩ := hs
  obtain ⟨s', hs', rfl | hn⟩ := ha s hs
  · exact ⟨s', hs', hcases⟩
  · rcases hcases with rfl | ⟨o, rfl⟩
    · cases hn with
      | answered g outcome ho => exact ⟨_, hs', .inr ⟨_, rfl⟩⟩
    · cases hn

theorem Called.step (hcalled : p.Called) (h : p.Owned) (hs : Step t p q) : q.Called := by
  intro u g hu
  have hold : Entry.unpublishCall u g ∈ p.journal →
      ∃ s, q.stage? u = some s ∧ (s = .unpublishing g ∨ ∃ o, s = .ended o) := fun hmem =>
    (h.sound.advances_step hs u).called (hcalled u g hmem)
  cases hs with
  | refuse | refuseBatch | closeAgain | release =>
    rw [journal_finish] at hu
    exact hold hu
  | reserve =>
    rcases List.mem_cons.1 hu with he | hu
    · cases he
    · exact hold hu
  | tryPublish g' d ht | tryUnpublish g' ht => cases h.stages t _ ht
  | unpublish g' ht =>
    rcases List.mem_cons.1 hu with he | hu
    · cases he
      exact ⟨_, stage?_setStage_self ht, .inl rfl⟩
    · exact hold hu
  | take d g' rest ready ht hr =>
    rcases List.mem_cons.1 hu with he | hu
    · cases he
      have htasks : ({ p.withRemoval t d g rest with ready }.see
          (.unpublishCall p.tasks.length g)).tasks = (p.withRemoval t d g rest).tasks := rfl
      refine ⟨.unpublishing g, ?_, .inl rfl⟩
      rw [stage?_congr htasks]
      exact stage?_withRemoval_new d g rest (lt_length_of_stage? ht)
    · exact hold hu
  | _ => exact hold hu

theorem Called.reply (hcalled : p.Called) (h : p.Sound) (hs : Reply t p q) : q.Called := by
  intro u g hu
  refine (h.advances_reply hs u).called (hcalled u g ?_)
  rcases journal_reply hs with he | ⟨g', he⟩ | ⟨g', he⟩ <;> simpa [he] using hu

theorem Called.lt_length (hcalled : p.Called) (hg : .unpublishCall t g ∈ p.journal) :
    t < p.tasks.length := by
  obtain ⟨s, hs, -⟩ := hcalled t g hg
  exact lt_length_of_stage? hs

/-- **A step of another task** is no call for a teardown. -/
theorem Owned.callsBy_step_of_ne (h : p.Owned) (hcalled : p.Called) (hs : Step t p q)
    (htc : t ≠ c) (hc : c < p.tasks.length) : q.callsBy c = p.callsBy c := by
  have hgrown := h.sound.grown_step hs
  have hparent : ∀ t g, .unpublishCall t g ∈ p.journal →
      (q.parent? t = some c ↔ p.parent? t = some c) := fun t g hmem => by
    rw [hgrown.parent?_of_lt (hcalled.lt_length hmem)]
  have uncounted : ∀ e, q.journal = e :: p.journal → q.callOf? c e = none →
      q.callsBy c = p.callsBy c := by
    intro e he hcall
    rw [callsBy_cons he hparent, hcall]
    exact List.append_nil _
  rcases journal_step hs with he | ⟨g', d, he⟩ | ⟨g', he, ht⟩ | ⟨d, g', rest, he, hd, hr, htasks⟩
  · exact callsBy_congr he hparent
  · exact uncounted _ he rfl
  · -- a task that was asked to unpublish is a part of nothing
    have hnone : p.parent? t = none := by
      rcases ht with ht | ht
      all_goals exact h.kin.orphan h.sound.parents ht id (by simp) (by simp)
    have hlt : t < p.tasks.length := by
      rcases ht with ht | ht <;> exact lt_length_of_stage? ht
    refine uncounted _ he ?_
    rw [callOf?, hgrown.parent?_of_lt hlt, hnone, if_neg (by simp [htc])]
  · -- the new task is a part of the other teardown
    have hnew : q.parent? p.tasks.length = some t := by
      rw [parent?_congr htasks, parent?_withRemoval, if_pos rfl]
    refine uncounted _ he ?_
    rw [callOf?, hnew, if_neg (by simp [htc, Nat.ne_of_gt hc])]

theorem Sound.callsBy_reply (h : p.Sound) (hs : Reply t p q) : q.callsBy c = p.callsBy c := by
  have hparent : ∀ t g, .unpublishCall t g ∈ p.journal →
      (q.parent? t = some c ↔ p.parent? t = some c) := fun t _ _ => by
    rw [(h.sameShape_reply hs).2]
  rcases journal_reply hs with he | ⟨g', he⟩ | ⟨g', he⟩
  · exact callsBy_congr he hparent
  all_goals
    rw [callsBy_cons he hparent]
    exact List.append_nil _

/-- A task that waits and has no parts has not called for anything. -/
theorem Owned.callsBy_of_waiting {td : SchemaHerald.Teardown} (h : p.Owned) (hcalled : p.Called)
    (hc : p.stage? c = some (.waiting td)) : p.callsBy c = [] := by
  refine List.filterMap_eq_nil_iff.2 fun e he => ?_
  cases e with
  | unpublishCall t g =>
    have hno := h.kin.no_parts hc id t
    refine if_neg ?_
    rintro (rfl | hp)
    · obtain ⟨s, hs, hcases⟩ := hcalled t g (List.mem_reverse.1 he)
      rw [hc] at hs
      cases hs
      rcases hcases with hcases | ⟨o, hcases⟩ <;> cases hcases
    · exact hno hp
  | _ => rfl

/-! ## Teardowns -/

/-- **The teardown of the registrations `gs`** by task `c` is under way or over. -/
inductive TearsDown (p : Publisher) (c : Nat) (gs : List Registration) : Prop
  /-- Some of them are taken up, and the registry was called for these. -/
  | underWay (d : Drain) (hc : p.stage? c = some (.draining d)) (hgs : d.snapshot = gs)
      (hcalls : p.callsBy c = d.removals.map (·.registration))
  /-- The registry was called for all of them, and nothing is left. -/
  | hasEnded (d : Drain) (hc : p.stage? c = some (.ended d.outcome)) (hgs : d.snapshot = gs)
      (hd : d.isComplete = true)
      (hends : ∀ m ∈ d.removals, ∀ o, m.outcome = some o → o = .done ∨ ∃ failure, o = .failed failure)
      (hcalls : p.callsBy c = gs) (hbare : p.registrar.Bare)

theorem ends_note {d : Drain} (hends : ∀ m ∈ d.removals, ∀ o, m.outcome = some o →
      o = .done ∨ ∃ failure, o = .failed failure) (ho : o = .done ∨ ∃ failure, o = .failed failure) :
    ∀ m ∈ (d.note t o).removals, ∀ o, m.outcome = some o →
      o = .done ∨ ∃ failure, o = .failed failure := by
  intro m hm o' ho'
  obtain ⟨m₀, hm₀, -, ⟨-, hout⟩ | ⟨-, rfl⟩⟩ := Drain.mem_removals_note hm
  · rw [hout] at ho'
    exact Option.some.inj ho' ▸ ho
  · exact hends m hm₀ o' ho'

/-- When a teardown is complete, it has taken up all registrations. -/
theorem registrations_of_isComplete {d : Drain} (hd : d.isComplete = true) :
    d.removals.map (·.registration) = d.snapshot := by
  have hrest : d.rest = [] := List.isEmpty_iff.1 (Bool.and_eq_true_iff.1 hd).1
  rw [Drain.snapshot, hrest, List.append_nil]

/-- **In a step of another task** a teardown stays as it is. -/
theorem Kin.draining_step_of_ne {d : Drain} (hkin : p.Kin) (h : p.Sound) (hs : Step t p q)
    (htc : t ≠ c) (hc : p.stage? c = some (.draining d)) : q.stage? c = some (.draining d) := by
  have hkept : DrainKept p c d := hkin c _ hc
  by_cases hp : p.parent? t = some c
  · -- a part of the teardown waits for an answer or has ended
    obtain ⟨m, -, -, hstage⟩ := hkept.part hp
    have hstill : (Stage.ofRemoval m).IsStill := by
      rcases Stage.ofRemoval_cases m with he | ⟨o, he⟩
      · rw [he]
        trivial
      · rw [he]
        trivial
    obtain ⟨ready, rfl⟩ := hs.eq_of_still hstage hstill
    exact hc
  · exact h.stage?_step_of_ne hs (Ne.symm htc) hc (.inr ⟨⟨d, rfl⟩, hp⟩)

/-- In a step a teardown stays as it is, or takes up its next registration. -/
theorem Owned.draining_step {d : Drain} (h : p.Owned) (hcalled : p.Called) (hs : Step t p q)
    (hc : p.stage? c = some (.draining d)) :
    (q.stage? c = some (.draining d) ∧ q.callsBy c = p.callsBy c) ∨
      ∃ g rest, d.rest = g :: rest ∧ q.callsBy c = p.callsBy c ++ [g] ∧
        q.stage? c =
          some (.draining { rest, removals := d.removals ++ [⟨p.tasks.length, g, none⟩] }) := by
  have hlt := lt_length_of_stage? hc
  by_cases htc : t = c
  · subst htc
    cases hs with
    | turn ready => exact .inl ⟨hc, rfl⟩
    | take d' g rest ready ht hr =>
      rw [hc] at ht
      cases ht
      have htasks : ({ p.withRemoval t d g rest with ready }.see
          (.unpublishCall p.tasks.length g)).tasks = (p.withRemoval t d g rest).tasks := rfl
      refine .inr ⟨g, rest, hr, ?_, ?_⟩
      · refine (callsBy_cons (p := p) rfl fun u g' hmem => ?_).trans ?_
        · rw [parent?_congr htasks, parent?_withRemoval,
            if_neg (Nat.ne_of_lt (hcalled.lt_length hmem))]
        · rw [callOf?, parent?_congr htasks, parent?_withRemoval, if_pos (.inr (if_pos rfl))]
          rfl
      · rw [stage?_congr htasks]
        exact stage?_setStage_self (stage?_append_of_some rfl hc)
    | _ => simp_all
  · exact .inl ⟨h.kin.draining_step_of_ne h.sound hs htc hc,
      h.callsBy_step_of_ne hcalled hs htc hlt⟩

/-- **A step** does not stop a teardown. -/
theorem TearsDown.step (htd : TearsDown p c gs) (h : p.Owned) (hcalled : p.Called)
    (hs : Step t p q) : TearsDown q c gs := by
  cases htd with
  | underWay d hc hgs hcalls =>
    rcases h.draining_step hcalled hs hc with ⟨hc', he⟩ | ⟨g, rest, hr, he, hc'⟩
    · exact .underWay d hc' hgs (he.trans hcalls)
    · refine .underWay _ hc' ?_ ?_
      · rw [← hgs, Drain.snapshot, Drain.snapshot, hr]
        simp
      · rw [he, hcalls]
        simp
  | hasEnded d hc hgs hd hends hcalls hbare =>
    refine .hasEnded d (h.sound.stage?_step_of_still hs hc trivial) hgs hd hends ?_
      ((h.sound.changes_step hs).bare hbare)
    by_cases htc : t = c
    · subst htc
      obtain ⟨ready, rfl⟩ := hs.eq_of_still hc trivial
      exact hcalls
    · exact (h.callsBy_step_of_ne hcalled hs htc (lt_length_of_stage? hc)).trans hcalls

/-- **The end of a removal** is noted by its teardown, which may be complete by it. -/
theorem finish_removal {d : Drain} (hself : p.parent? t ≠ some t) (ht : p.stage? t = some s)
    (hp : p.parent? t = some c) (hc : p.stage? c = some (.draining d)) (o : Outcome) :
    ((p.finish t o).stage? c = some (.draining (d.note t o)) ∧
        (p.finish t o).registrar = p.registrar) ∨
      ((p.finish t o).stage? c = some (.ended (d.note t o).outcome) ∧
        (d.note t o).isComplete = true ∧ (p.finish t o).registrar = p.registrar.release) := by
  have hne : c ≠ t := fun he => hself (he ▸ hp)
  cases finished_finish hself ht o with
  | alone hparent hq => exact absurd hc ((hparent c hp).2 d)
  | noted c₀ b b' hp₀ hb hnoted hqc hended hu hq =>
    rw [hp] at hp₀
    cases hp₀
    rw [hc] at hb
    cases hb
  | drained c₀ d₀ hp₀ hd hopen hq =>
    rw [hp] at hp₀
    cases hp₀
    rw [hc] at hd
    cases hd
    rw [hq]
    exact .inl ⟨stage?_setStage_self ((stage?_setStage_of_ne hne).trans hc), rfl⟩
  | released c₀ d₀ hp₀ hd hdone hq =>
    rw [hp] at hp₀
    cases hp₀
    rw [hc] at hd
    cases hd
    rw [hq]
    refine .inr ⟨?_, hdone, rfl⟩
    exact stage?_setStage_self ((stage?_setStage_of_ne (p := p) (s := .ended o) hne).trans hc)

/-- **What a reply does to a teardown that is under way**: it stays as it is, or one of its removals
has ended and is noted, by which it may be complete. -/
theorem Kin.draining_reply {d : Drain} (hkin : p.Kin) (h : p.Sound) (hs : Reply t p q)
    (hc : p.stage? c = some (.draining d)) :
    (p.parent? t ≠ some c ∧ q.stage? c = some (.draining d)) ∨
      ∃ g o, p.parent? t = some c ∧ p.stage? t = some (.unpublishing g) ∧
        q.stage? t = some (.ended o) ∧ (o = .done ∨ ∃ failure, o = .failed failure) ∧
        (q.stage? c = some (.draining (d.note t o)) ∨
          q.stage? c = some (.ended (d.note t o).outcome) ∧ (d.note t o).isComplete = true ∧
            q.registrar.Bare) := by
  have hquiet := (h.changes_reply hs).quiet ⟨(h.fits c _ hc).1, (h.fits c _ hc).2⟩
  by_cases hp : p.parent? t = some c
  · have noted : ∀ {p' : Publisher} {s : Stage} (o : Outcome), p'.tasks = p.tasks →
        p.stage? t = some s → q = p'.finish t o →
        q.stage? c = some (.draining (d.note t o)) ∨
          q.stage? c = some (.ended (d.note t o).outcome) ∧ (d.note t o).isComplete = true ∧
            q.registrar.Bare := by
      rintro p' s o htasks ht rfl
      have hself : p'.parent? t ≠ some t := by
        rw [parent?_congr htasks]
        exact h.parents.ne_self _
      rcases finish_removal hself ((stage?_congr htasks t).trans ht)
        ((parent?_congr htasks t).trans hp) ((stage?_congr htasks c).trans hc) o with
        ⟨hc', -⟩ | ⟨hc', hdone, hr⟩
      · exact .inl hc'
      · refine .inr ⟨hc', hdone, hquiet, ?_, ?_⟩
        · rw [hr]
          rfl
        · rw [hr]
          rfl
    have hplain : ∀ s, p.stage? t = some s → (∀ g, s ≠ .unpublishing g) → (∀ o, s ≠ .ended o) →
        False := fun s ht hu he => hkin.not_draining ht hu he hp hc
    cases hs with
    | remove g ht =>
      exact .inr ⟨g, .done, hp, ht, h.ended_finish (by simp) ht _, .inl rfl,
        noted .done (by simp) ht rfl⟩
    | keep g cause ht =>
      exact .inr ⟨g, _, hp, ht, h.ended_finish rfl ht _, .inr ⟨_, rfl⟩, noted _ rfl ht rfl⟩
    | commit k handle d' record ht | lose k handle d' outcome ht ho =>
      exact (hplain _ ht (by simp) (by simp)).elim
    | tried s outcome ht hs ho =>
      rcases hs with ⟨_, _, rfl⟩ | ⟨_, rfl⟩
      all_goals exact (hplain _ ht (by simp) (by simp)).elim
  · exact .inl ⟨hp, h.stage?_reply_of_ne hs (hs.ne hc id) hc (.inr ⟨⟨d, rfl⟩, hp⟩)⟩

/-- **A reply** does not stop a teardown, and may complete it. -/
theorem TearsDown.reply (htd : TearsDown p c gs) (h : p.Owned) (hs : Reply t p q) :
    TearsDown q c gs := by
  have hcalls' := h.sound.callsBy_reply (c := c) hs
  cases htd with
  | hasEnded d hc hgs hd hends hcalls hbare =>
    exact .hasEnded d (h.sound.stage?_reply hs hc id id) hgs hd hends
      (hcalls'.trans hcalls) ((h.sound.changes_reply hs).bare hbare)
  | underWay d hc hgs hcalls =>
    have hkept : DrainKept p c d := h.kin c _ hc
    rcases h.kin.draining_reply h.sound hs hc with
      ⟨-, hc'⟩ | ⟨g, o, -, -, -, ho, hc' | ⟨hc', hdone, hbare⟩⟩
    · exact .underWay d hc' hgs (hcalls'.trans hcalls)
    · refine .underWay (d.note t o) hc' ((d.snapshot_note t o).trans hgs) ?_
      rw [hcalls', hcalls, d.map_removals_note t o _ fun _ _ => rfl]
    · refine .hasEnded (d.note t o) hc' ((d.snapshot_note t o).trans hgs) hdone
        (ends_note hkept.ends ho) ?_ hbare
      have hmap := d.map_removals_note t o (·.registration) fun _ _ => rfl
      rw [hcalls', hcalls, ← hmap, registrations_of_isComplete hdone, d.snapshot_note, hgs]

/-! ## Moves -/

theorem Called.steps (hcalled : p.Called) (h : p.Owned) (hs : ReflTransGen (Step t) p q) :
    q.Called := by
  induction hs with
  | refl => exact hcalled
  | tail hsteps hstep ih => exact ih.step (h.steps hsteps) hstep

theorem Called.ask (hcalled : p.Called) (request : Request) : (p.ask request).Called := by
  intro u g hu
  obtain ⟨s, hs, hcases⟩ := hcalled u g hu
  exact ⟨s, stage?_ask_of_some request hs, hcases⟩

theorem TearsDown.ask (htd : TearsDown p c gs) (request : Request) :
    TearsDown (p.ask request) c gs := by
  have hcalls : (p.ask request).callsBy c = p.callsBy c := by
    refine callsBy_congr rfl fun t g hmem => ?_
    rw [parent?_ask]
  have hstage : ∀ {s}, p.stage? c = some s → (p.ask request).stage? c = some s := fun hs =>
    stage?_ask_of_some request hs
  cases htd with
  | underWay d hc hgs hd => exact .underWay d (hstage hc) hgs (hcalls.trans hd)
  | hasEnded d hc hgs hd hends hall hbare =>
    exact .hasEnded d (hstage hc) hgs hd hends (hcalls.trans hall) hbare

theorem called_fresh (id : String) (listening : Bool) (limit : Option Nat) :
    (fresh id listening limit).Called := by
  intro t g hg
  simp [fresh] at hg

theorem Called.move (hcalled : p.Called) (h : p.Owned) {m : Move} (hm : m.isOwn = true) :
    (p.move m).Called :=
  h.move_induction hm (fun request _ => hcalled.ask request)
    (fun _ _ _ hq hs hq' => hq'.step hq hs) (fun _ _ hs => hcalled.reply h.sound hs) hcalled

/-- **A move** does not stop a teardown. -/
theorem TearsDown.move (htd : TearsDown p c gs) (h : p.Owned) (hcalled : p.Called) {m : Move}
    (hm : m.isOwn = true) : TearsDown (p.move m) c gs := by
  have hboth : (p.move m).Called ∧ TearsDown (p.move m) c gs := by
    refine h.move_induction (P := fun q => q.Called ∧ TearsDown q c gs) hm ?_ ?_ ?_ ⟨hcalled, htd⟩
    · exact fun request _ => ⟨hcalled.ask request, htd.ask request⟩
    · exact fun _ _ _ hq hs ⟨hcq, htq⟩ => ⟨hcq.step hq hs, htq.step hq hcq hs⟩
    · exact fun _ _ hs => ⟨hcalled.reply h.sound hs, htd.reply h hs⟩
  exact hboth.2

/-! ## The start of a teardown -/

theorem Owned.callsBy_step_of_waiting (h : p.Owned) (hcalled : p.Called) (hs : Step c p q)
    (hc : p.stage? c = some (.waiting .unpublishing)) (hjournal : q.journal = p.journal) :
    q.callsBy c = [] := by
  rw [← h.callsBy_of_waiting hcalled hc]
  refine callsBy_congr hjournal fun t g hmem => ?_
  rw [(h.sound.grown_step hs).parent?_of_lt (hcalled.lt_length hmem)]

/-- **What a step does to a task that waits**: it stays as it is, or nothing is reserved and it has
done its work, as nothing is live, or begins to take back what is. -/
theorem Owned.waiting_cases (h : p.Owned) (hs : Step t p q)
    (hc : p.stage? c = some (.waiting .unpublishing)) :
    (q.stage? c = some (.waiting .unpublishing) ∧ (t = c → q.registrar = p.registrar)) ∨
      (t = c ∧ p.registrar.inFlight = 0 ∧ q.journal = p.journal ∧
        ((p.registrar.registrations = [] ∧ q.stage? c = some (.ended .done) ∧ q.registrar.Bare) ∨
          q.stage? c = some (.draining { rest := p.registrar.registrations }))) := by
  by_cases htc : t = c
  · subst htc
    cases hs with
    | turn ready => exact .inl ⟨hc, fun _ => rfl⟩
    | release td outcome ht h0 ho =>
      rw [hc] at ht
      cases ht
      rcases ho with ⟨-, hnil, rfl⟩ | ⟨_, _, _, _, he, -⟩
      · have hself : p.parent? t ≠ some t := h.sound.parents.ne_self t
        have hended : ((p.withRegistrar p.registrar.release).finish t .done).stage? t =
            some (.ended .done) := h.sound.ended_finish (tasks_withRegistrar ..) hc .done
        have hbare : (p.withRegistrar p.registrar.release).registrar.Bare :=
          Registrar.bare_release (h.sound.fits t _ hc) h0
        refine .inr ⟨rfl, h0, by simp, .inl ⟨hnil, hended, ?_⟩⟩
        rcases registrar_finish (p := p.withRegistrar p.registrar.release) hself hc .done with
          hr | ⟨_, _, -, -, -, hr, -⟩
        · rw [hr]
          exact hbare
        · rw [hr]
          exact Registrar.bare_release hbare.closed hbare.idle
      · cases he
    | drain ht h0 hne =>
      refine .inr ⟨rfl, h0, rfl, .inr ?_⟩
      exact stage?_setStage_self (p := { p with ready := t :: p.ready }) hc
    | _ => simp_all
  · exact .inl ⟨h.sound.stage?_step_of_ne hs (Ne.symm htc) hc (.inl id), fun he => absurd he htc⟩

/-- **A task that waits** stays as it is, or takes back what is live when nothing is reserved. -/
theorem Owned.waiting_step (h : p.Owned) (hcalled : p.Called) (hs : Step t p q)
    (hc : p.stage? c = some (.waiting .unpublishing)) :
    (q.stage? c = some (.waiting .unpublishing) ∧ (t = c → q.registrar = p.registrar)) ∨
      (t = c ∧ p.registrar.inFlight = 0 ∧ TearsDown q c p.registrar.registrations) := by
  rcases h.waiting_cases hs hc with hwait | ⟨rfl, h0, hjournal, ⟨hnil, hended, hbare⟩ | hdrain⟩
  · exact .inl hwait
  · have hcalls := h.callsBy_step_of_waiting hcalled hs hc hjournal
    rw [hnil]
    exact .inr ⟨rfl, h0, .hasEnded { rest := [] } hended rfl rfl (by simp) hcalls hbare⟩
  · have hcalls := h.callsBy_step_of_waiting hcalled hs hc hjournal
    exact .inr ⟨rfl, h0, .underWay { rest := p.registrar.registrations } hdrain rfl hcalls⟩

/-- **In the turn of a task** a task that waits stays as it is, or it is its turn and it takes back
what is live. -/
theorem Owned.waiting_steps (h : p.Owned) (hcalled : p.Called) (hs : ReflTransGen (Step t) p q)
    (hc : p.stage? c = some (.waiting .unpublishing)) :
    (q.stage? c = some (.waiting .unpublishing) ∧ (t = c → q.registrar = p.registrar)) ∨
      (t = c ∧ p.registrar.inFlight = 0 ∧ TearsDown q c p.registrar.registrations) := by
  induction hs with
  | refl => exact .inl ⟨hc, fun _ => rfl⟩
  | @tail q q' hsteps hstep ih =>
    have hq := h.steps hsteps
    have hqcalled := hcalled.steps h hsteps
    rcases ih with ⟨hwait, hr⟩ | ⟨htc, h0, htd⟩
    · rcases hq.waiting_step hqcalled hstep hwait with ⟨hwait', hr'⟩ | ⟨htc, h0, htd⟩
      · exact .inl ⟨hwait', fun htc => (hr' htc).trans (hr htc)⟩
      · rw [hr htc] at h0 htd
        exact .inr ⟨htc, h0, htd⟩
    · exact .inr ⟨htc, h0, htd.step hq hqcalled hstep⟩

/-- **A close that finds the registrar open** closes it and waits, or takes back at once what is
live. -/
theorem Owned.run_close (h : p.Owned) (hcalled : p.Called) (hready : c ∈ p.ready)
    (hc : p.stage? c = some (.asked (.close .unpublishing))) (hopen : p.registrar.closed = false) :
    (p.run c).stage? c = some (.waiting .unpublishing) ∨
      (p.registrar.inFlight = 0 ∧ TearsDown (p.run c) c p.registrar.registrations) := by
  obtain ⟨parent, ht⟩ := stage?_eq_some_iff.1 hc
  have hturn : Step c p { p with ready := p.ready.erase c } := .turn _
  have hclose : Step c { p with ready := p.ready.erase c }
      ((({ p with ready := p.ready.erase c } : Publisher).withRegistrar p.registrar.close).setStage c
        (.waiting .unpublishing)) := .close .unpublishing hc hopen
  have hsteps := (ReflTransGen.single hturn).tail hclose
  have hwait : ((({ p with ready := p.ready.erase c } : Publisher).withRegistrar
      p.registrar.close).setStage c (.waiting .unpublishing)).stage? c =
        some (.waiting .unpublishing) := stage?_setStage_self (s := .asked (.close .unpublishing)) hc
  have hrun : p.run c = ((({ p with ready := p.ready.erase c } : Publisher).withRegistrar
      p.registrar.close).setStage c (.waiting .unpublishing)).tearDown c .unpublishing := by
    rw [tearDown_setStage]
    simp only [run, List.contains_iff_mem.2 hready, ite_true, ht, begin, beginClose, hopen,
      Bool.false_eq_true, ite_false]
  rw [hrun]
  rcases (h.steps hsteps).waiting_steps (hcalled.steps h hsteps) (steps_tearDown hwait) hwait with
    ⟨hwait', -⟩ | ⟨-, h0, htd⟩
  · exact .inl hwait'
  · exact .inr ⟨h0, htd⟩

end SchemaHerald.Publisher
