import SchemaHerald.Proofs.OwnRuns

/-!
# Registrations come and go

A task ends with a registration only by the answer to its call, and the registration is live then
(`Sound.registered_step`, `Sound.registered_reply`). It stays live until somebody unpublishes one like
it or the registrar is released (`Owned.live?_step`, `Sound.live?_reply`); the registrar is released
only when a task that closes ends, and a task begins to close only while the registrar is open
(`Sound.closing_step`, `Sound.closing_reply`).
-/
namespace SchemaHerald

/-- The stages of a task that closes the registrar and has not released it yet. -/
def Stage.IsClosing : Stage → Prop
  | .waiting _ | .draining _ => True
  | _ => False

namespace Publisher

open Relation

variable {p q : Publisher} {t u c : Nat} {s s' : Stage} {o : Outcome} {g : Registration} {k : Key}

/-! ## Registrations that tasks end with -/

/-- A task that ends with a registration was publishing. -/
theorem publishing_of_next (hn : s.Next (.ended (.registered g))) :
    ∃ k h d, s = .publishing k h d := by
  generalize he : Stage.ended (.registered g) = s' at hn
  cases hn with
  | commit k h d g' hs hh => exact ⟨k, h, d, rfl⟩
  | lose k h d outcome ho => exact ⟨k, h, d, rfl⟩
  | refuse | closeAgain => cases he
  | refuseBatch o ds outcome ho =>
    rcases ho with ⟨_, rfl⟩ | ⟨_, rfl⟩ <;> cases he
  | answered g' outcome ho => rcases ho with rfl | ⟨_, rfl⟩ <;> cases he
  | triedPublish h d outcome ho | triedUnpublish h outcome ho | release td outcome ho =>
    cases he
    cases ho
  | gather b hb =>
    unfold Batch.outcome at he
    split at he <;> cases he
  | drained d d' h =>
    unfold Drain.outcome Outcome.ofRemovals at he
    split at he <;> cases he
  | _ => cases he

/-- **By itself no task ends with a registration.** -/
theorem Sound.registered_step (h : p.Sound) (hs : Step t p q)
    (hu : q.stage? u = some (.ended (.registered g))) :
    p.stage? u = some (.ended (.registered g)) := by
  rcases h.came_step hs hu with he | ⟨s, hsu, hn⟩ | ⟨-, hfresh⟩
  · exact he
  · obtain ⟨k, handle, d, rfl⟩ := publishing_of_next hn
    rw [h.stage?_step_of_still hs hsu trivial] at hu
    cases hu
  · exact hfresh.elim

/-- While a task publishes, something is reserved. -/
theorem Sound.not_idle {k : Key} {handle : Handle} {d : Definition} (h : p.Sound)
    (ht : p.stage? t = some (.publishing k handle d)) : p.registrar.inFlight ≠ 0 := by
  intro h0
  have hmem : k ∈ p.claims := List.mem_append_right _ (mem_flights_iff.2 ⟨t, _, ht, rfl⟩)
  rw [h.claimed.eq_nil h0] at hmem
  cases hmem

/-- While a task publishes, no teardown is under way. -/
theorem Sound.not_draining {k : Key} {handle : Handle} {d : Definition} {d' : Drain} (h : p.Sound)
    (ht : p.stage? t = some (.publishing k handle d)) : p.stage? c ≠ some (.draining d') :=
  fun hc => h.not_idle ht (h.fits c _ hc).2

/-- The end of a task that is no part of a teardown does not release the registrar. -/
theorem Sound.registrar_finish_apart {p' : Publisher} (h : p.Sound) (ht : p.stage? t = some s)
    (htasks : p'.tasks = p.tasks)
    (hno : ∀ c d, p.parent? t = some c → p.stage? c ≠ some (.draining d)) (o : Outcome) :
    (p'.finish t o).registrar = p'.registrar := by
  have hself : p'.parent? t ≠ some t := by
    rw [parent?_congr htasks]
    exact h.parents.ne_self _
  rcases registrar_finish hself ((stage?_congr htasks t).trans ht) o with he | ⟨c, d, hp, hc, -⟩
  · exact he
  · rw [stage?_congr htasks] at hc
    rw [parent?_congr htasks] at hp
    exact absurd hc (hno c d hp)

/-- A publish that is answered does not release the registrar. -/
theorem Sound.registrar_finish_publishing {k : Key} {handle : Handle} {d : Definition}
    {p' : Publisher} (h : p.Sound) (ht : p.stage? t = some (.publishing k handle d))
    (htasks : p'.tasks = p.tasks) (o : Outcome) :
    (p'.finish t o).registrar = p'.registrar :=
  h.registrar_finish_apart ht htasks (fun _ _ _ => h.not_draining ht) o

/-- **A task ends with a registration** when its reservation is turned into one. -/
theorem Sound.registered_reply (h : p.Sound) (hs : Reply t p q)
    (hu : q.stage? u = some (.ended (.registered g))) :
    p.stage? u = some (.ended (.registered g)) ∨
      u = t ∧ ∃ k handle d record, p.stage? t = some (.publishing k handle d) ∧
        g = (p.registrar.register k record handle p.listening).1 ∧
        q.registrar = (p.registrar.register k record handle p.listening).2 := by
  rcases h.came_reply hs hu with he | ⟨s, hsu, hn⟩
  · exact .inl he
  · obtain ⟨k, handle, d, rfl⟩ := publishing_of_next hn
    by_cases hut : u = t
    · subst hut
      refine .inr ⟨rfl, ?_⟩
      have ended : ∀ {p' : Publisher} {o : Outcome}, p'.tasks = p.tasks →
          (p'.finish u o).stage? u = some (.ended (.registered g)) → o = .registered g := by
        intro p' o htasks hu
        rw [h.ended_finish htasks hsu] at hu
        exact Stage.ended.inj (Option.some.inj hu)
      cases hs with
      | commit k handle d record ht =>
        refine ⟨k, handle, d, record, ht, ?_, ?_⟩
        · exact (Outcome.registered.inj (ended (by simp) hu)).symm
        · rw [h.registrar_finish_publishing ht (by simp), registrar_withRegistered]
      | lose k handle d outcome ht ho =>
        have he := ended (by simp) hu
        rcases ho with ⟨_, rfl⟩ | ⟨_, rfl⟩ <;> cases he
      | remove g' ht | keep g' cause ht =>
        rw [hsu] at ht
        cases ht
      | tried s outcome ht hs ho =>
        rw [hsu] at ht
        rcases hs with ⟨_, _, rfl⟩ | ⟨_, rfl⟩ <;> cases ht
    · -- a task that publishes stays where it is when another one is answered
      rw [h.stage?_reply_of_ne hs hut hsu (.inl id)] at hu
      cases hu

/-! ## Registrations that stay live -/

/-- A task at a stage of a publish is no part of a teardown, so that its end does not release the
registrar. -/
theorem Owned.registrar_finish_of_plain (h : p.Owned) (ht : p.stage? t = some s)
    (hu : ∀ g, s ≠ .unpublishing g) (he : ∀ o, s ≠ .ended o) (o : Outcome) :
    (p.finish t o).registrar = p.registrar := by
  refine h.sound.registrar_finish_apart ht rfl (fun c d hp => ?_) o
  exact h.kin.not_draining ht hu he hp

/-- **By itself no task takes a registration back** or makes one. -/
theorem Owned.live?_step (h : p.Owned) (hs : Step t p q) (k : Key) :
    q.registrar.live? k = p.registrar.live? k := by
  cases hs with
  | refuse o d failure ht => rw [h.registrar_finish_of_plain ht (by simp) (by simp)]
  | refuseBatch o ds outcome ht ho => rw [h.registrar_finish_of_plain ht (by simp) (by simp)]
  | closeAgain td ht hc => rw [h.registrar_finish_of_plain ht (by simp) (by simp)]
  | reserve o o' d k' r ht ho hd hr =>
    exact (Registrar.live?_handleFor (o := o')).trans (Registrar.live?_reserve hr)
  | release td outcome ht h0 ho =>
    -- the registrar is released in a turn only when nothing is live in it
    have hown : td = .unpublishing := h.stages t _ ht
    have hnil : p.registrar.registrations = [] := by
      rcases ho with ⟨-, hnil, -⟩ | ⟨_, _, _, _, he, -⟩
      · exact hnil
      · rw [hown] at he
        cases he
    have hnone := Registrar.registrations_eq_nil_iff.1 hnil k
    rw [hnone]
    have hself : p.parent? t ≠ some t := h.sound.parents.ne_self t
    rcases registrar_finish (p := p.withRegistrar p.registrar.release) hself ht outcome with
      hr | ⟨c, d, -, -, -, hr, -⟩
    all_goals
      rw [hr]
      rfl
  | _ => rfl

theorem Owned.live?_steps (h : p.Owned) (hs : ReflTransGen (Step t) p q) (k : Key) :
    q.registrar.live? k = p.registrar.live? k := by
  induction hs with
  | refl => rfl
  | tail hsteps hstep ih => exact ((h.steps hsteps).live?_step hstep k).trans ih

/-- A teardown was under way and is complete. -/
def Completes (p q : Publisher) : Prop :=
  ∃ c d o, p.stage? c = some (.draining d) ∧ q.stage? c = some (.ended o)

/-- **What a reply does to a registration that is live**: it stays, or the task was to unpublish one
like it, or a teardown is complete. -/
theorem Sound.live?_reply (h : p.Sound) (hs : Reply t p q) (hg : p.registrar.live? k = some g) :
    q.registrar.live? k = some g ∨
      (∃ g', p.stage? t = some (.unpublishing g') ∧ q.stage? t = some (.ended .done) ∧
        g'.key = k ∧ g.alike g' = true) ∨
      Completes p q := by
  have told : ∀ {p' : Publisher} {s : Stage} {o : Outcome}, p'.tasks = p.tasks →
      p.stage? t = some s → p'.registrar.live? k = some g →
      (p'.finish t o).registrar.live? k = some g ∨ Completes p (p'.finish t o) := by
    intro p' s o htasks ht hlive
    have hself : p'.parent? t ≠ some t := by
      rw [parent?_congr htasks]
      exact h.parents.ne_self _
    rcases registrar_finish hself ((stage?_congr htasks t).trans ht) o with hr | ⟨c, d, -, hd, -, -, hq⟩
    · rw [hr]
      exact .inl hlive
    · exact .inr ⟨c, d, _, (stage?_congr htasks c).symm.trans hd, hq⟩
  cases hs with
  | commit k' handle d record ht =>
    refine (told (by simp) ht ?_).imp_right .inr
    rw [registrar_withRegistered, Registrar.live?_register, if_neg, hg]
    -- the key of the new registration was reserved, so that nothing was live under it
    rintro rfl
    rw [Registrar.live?_eq_some_iff, h.reserved ht] at hg
    cases hg
  | lose k' handle d outcome ht ho =>
    refine (told (by simp) ht ?_).imp_right .inr
    rw [registrar_wakeIdle, registrar_withRegistrar, Registrar.live?_abandon, hg]
  | remove g' ht =>
    by_cases hkey : k = g'.key ∧ p.registrar.holds g' = true
    · obtain ⟨g₀, hg₀, halike⟩ := Registrar.holds_iff.1 hkey.2
      rw [← hkey.1, hg] at hg₀
      cases hg₀
      exact .inr (.inl ⟨g', ht, h.ended_finish (by simp) ht _, hkey.1.symm, halike⟩)
    · refine (told (by simp) ht ?_).imp_right .inr
      rw [registrar_withdraw, registrar_withRegistrar, Registrar.live?_unregister, if_neg hkey, hg]
  | keep g' cause ht => exact (told rfl ht hg).imp_right .inr
  | tried s outcome ht hs ho => exact (told rfl ht hg).imp_right .inr

/-! ## Tasks that close -/

/-- **No task begins to close** while the registrar is closed, or in the turn of another task. -/
theorem Sound.closing_step (h : p.Sound) (hs : Step t p q)
    (hc : p.registrar.closed = true ∨ u ≠ t) (hu : q.stage? u = some s') (hs' : s'.IsClosing) :
    ∃ s, p.stage? u = some s ∧ s.IsClosing := by
  rcases h.came_step hs hu with he | ⟨s, hsu, hn⟩ | ⟨-, hfresh⟩
  · exact ⟨s', he, hs'⟩
  · cases hn with
    | close td =>
      exfalso
      by_cases hut : u = t
      · subst hut
        replace hc : p.registrar.closed = true := hc.resolve_right fun hne => hne rfl
        cases hs with
        | turn ready =>
          rw [show p.stage? u = some (.waiting td) from hu] at hsu
          cases hsu
        | closeAgain td' ht hc' =>
          rw [h.ended_finish rfl ht] at hu
          cases hu
        | close td' ht hopen =>
          rw [hc] at hopen
          cases hopen
        | _ => simp_all
      · rw [h.stage?_step_of_ne hs hut hsu (.inl id)] at hu
        cases hu
    | drain gs => exact ⟨_, hsu, trivial⟩
    | remove d d' hd => exact ⟨_, hsu, trivial⟩
    | _ => exact hs'.elim
  · cases s' with
    | waiting | draining => exact hfresh.elim
    | _ => exact hs'.elim

theorem Sound.closing_reply (h : p.Sound) (hs : Reply t p q) (hu : q.stage? u = some s')
    (hs' : s'.IsClosing) : ∃ s, p.stage? u = some s ∧ s.IsClosing := by
  rcases h.came_reply hs hu with he | ⟨s, hsu, hn⟩
  · exact ⟨s', he, hs'⟩
  · cases hn with
    | close td =>
      rw [h.stage?_reply hs hsu id id] at hu
      cases hu
    | drain gs => exact ⟨_, hsu, trivial⟩
    | remove d d' hd => exact ⟨_, hsu, trivial⟩
    | _ => exact hs'.elim

/-- While the registrar is open no task closes. -/
theorem Sound.not_closing (h : p.Sound) (hopen : p.registrar.closed = false)
    (hu : p.stage? u = some s) : ¬ s.IsClosing := by
  intro hs
  have hfits := h.fits u s hu
  have hclosed : p.registrar.closed = true := by
    cases s with
    | waiting td => exact hfits
    | draining d => exact hfits.1
    | _ => exact hs.elim
  rw [hopen] at hclosed
  cases hclosed

/-- No other task closes. -/
def SoleCloser (p : Publisher) (c : Nat) : Prop :=
  ∀ u s, p.stage? u = some s → s.IsClosing → u = c

/-- **What closes an open registrar** is the step of a task that was asked to, which waits then and
is the only one to close. -/
theorem Owned.close_step (h : p.Owned) (hs : Step t p q) (hopen : p.registrar.closed = false) :
    q.registrar.closed = false ∨
      (p.stage? t = some (.asked (.close .unpublishing)) ∧
        q.stage? t = some (.waiting .unpublishing) ∧ SoleCloser q t) := by
  cases hs with
  | refuse o d failure ht | refuseBatch o ds outcome ht ho | closeAgain td ht hc =>
    left
    rw [h.registrar_finish_of_plain ht (by simp) (by simp), hopen]
  | reserve o o' d k r ht ho hd hr =>
    left
    show (r.handleFor o').2.closed = false
    rw [Registrar.closed_handleFor, (Registrar.reserve_eq_ok_iff.1 hr).2.2.2]
    exact hopen
  | release td outcome ht h0 ho => exact absurd trivial (h.sound.not_closing hopen ht)
  | close td ht hc =>
    right
    have hown : td = .unpublishing := by
      have hstage : Request.isOwn (.close td) = true := h.stages t _ ht
      cases td with
      | unpublishing => rfl
      | sweeping => cases hstage
    subst hown
    refine ⟨ht, stage?_setStage_self (p := p.withRegistrar p.registrar.close) ht, ?_⟩
    intro u s hu hs
    by_contra hut
    have hu' : p.stage? u = some s := by
      rw [← hu]
      exact (stage?_setStage_of_ne (p := p.withRegistrar p.registrar.close) hut).symm
    exact h.sound.not_closing hopen hu' hs
  | _ => exact .inl hopen

/-- A task that is asked to close was asked to before the step. -/
theorem Sound.asked_close_step {td : SchemaHerald.Teardown} (h : p.Sound) (hs : Step t p q)
    (hu : q.stage? u = some (.asked (.close td))) : p.stage? u = some (.asked (.close td)) := by
  rcases h.came_step hs hu with he | ⟨s, -, hn⟩ | ⟨-, hfresh⟩
  · exact he
  · cases hn
  · exact hfresh.elim

theorem SoleCloser.ask (hsole : SoleCloser p c) (request : Request) :
    SoleCloser (p.ask request) c := by
  intro u s hu hs
  rcases stage?_of_ask hu with hu | rfl
  · exact hsole u s hu hs
  · exact hs.elim

theorem SoleCloser.step (hsole : SoleCloser p c) (h : p.Sound) (hc : p.registrar.closed = true)
    (hs : Step t p q) : SoleCloser q c := by
  intro u s hu hs'
  obtain ⟨s₀, hs₀, hclosing⟩ := h.closing_step hs (.inl hc) hu hs'
  exact hsole u s₀ hs₀ hclosing

theorem SoleCloser.reply (hsole : SoleCloser p c) (h : p.Sound) (hs : Reply t p q) :
    SoleCloser q c := by
  intro u s hu hs'
  obtain ⟨s₀, hs₀, hclosing⟩ := h.closing_reply hs hu hs'
  exact hsole u s₀ hs₀ hclosing

end Publisher
end SchemaHerald
