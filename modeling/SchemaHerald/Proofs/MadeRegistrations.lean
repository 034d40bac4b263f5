import SchemaHerald.Proofs.Teardowns

/-!
# Registrations that a publisher has made

A registration was made when a task has ended with it. What is live was made, and as long as callers
only ask to unpublish what was made, every task that unpublishes or is to unpublish is about such a
registration (`Acquainted`): a teardown begins with what is live and goes on with what it began with.
-/
namespace SchemaHerald

/-- A task at a stage is to unpublish a registration, or does so, or is a teardown of it. -/
def Stage.Mentions (g : Registration) : Stage → Prop
  | .asked (.unpublish g') | .unpublishing g' => g' = g
  | .draining d => g ∈ d.snapshot
  | _ => False

namespace Publisher

open Relation

variable {p q : Publisher} {t u c : Nat} {s s' : Stage} {o : Outcome} {g : Registration} {k : Key}

/-- **A registration was made**: a task has ended with it. -/
def Made (p : Publisher) (g : Registration) : Prop :=
  ∃ t, p.stage? t = some (.ended (.registered g))

theorem Made.mono (hmade : p.Made g) (hgoes : ∀ u, Goes p q u) : q.Made g := by
  obtain ⟨t, ht⟩ := hmade
  obtain ⟨s, hs, hl⟩ := hgoes t _ ht
  refine ⟨t, ?_⟩
  rw [hs, hl.eq_of_ended]

theorem made_ask (request : Request) : (p.ask request).Made g ↔ p.Made g := by
  constructor
  · rintro ⟨t, ht⟩
    exact ⟨t, ended_of_ask ht⟩
  · rintro ⟨t, ht⟩
    exact ⟨t, stage?_ask_of_some request ht⟩

/-- By itself no task makes a registration. -/
theorem Sound.made_step (h : p.Sound) (hs : Step t p q) : q.Made g ↔ p.Made g := by
  constructor
  · rintro ⟨u, hu⟩
    exact ⟨u, h.registered_step hs hu⟩
  · intro hmade
    exact hmade.mono fun u => (h.advances_step hs u).goes

/-- A reply that is no record makes no registration. -/
theorem Sound.made_reply (h : p.Sound) (hs : Reply t p q)
    (hno : ∀ k handle d, p.stage? t = some (.publishing k handle d) → ∃ o,
      q.stage? t = some (.ended o) ∧ o.registration? = none) : q.Made g ↔ p.Made g := by
  constructor
  · rintro ⟨u, hu⟩
    rcases h.registered_reply hs hu with he | ⟨rfl, k, handle, d, record, ht, -⟩
    · exact ⟨u, he⟩
    · obtain ⟨o, ho, hnone⟩ := hno k handle d ht
      rw [hu] at ho
      cases ho
      cases hnone
  · intro hmade
    exact hmade.mono fun u => (h.advances_reply hs u).goes

/-! ## What tasks are about -/

/-- What a task comes to be about it was about before, or it begins a teardown. -/
theorem mentions_of_next (hn : s.Next s') (hg : s'.Mentions g) :
    s.Mentions g ∨ s = .waiting .unpublishing ∧ ∃ gs, s' = .draining { rest := gs } := by
  cases hn with
  | unpublish g' => exact .inl hg
  | drain gs => exact .inr ⟨rfl, gs, rfl⟩
  | remove d d' hsnapshot =>
    left
    show g ∈ d.snapshot
    rw [← hsnapshot]
    exact hg
  | _ => exact hg.elim

/-- **In a step** a task comes to be about what a task was about, or what is live. -/
theorem Owned.mentions_step (h : p.Owned) (hs : Step t p q) (hu : q.stage? u = some s')
    (hg : s'.Mentions g) :
    (∃ u s, p.stage? u = some s ∧ s.Mentions g) ∨ g ∈ p.registrar.registrations := by
  have of_next : ∀ {c : Nat} {s s' : Stage}, p.stage? c = some s → s.Next s' →
      q.stage? c = some s' → s'.Mentions g →
      (∃ u s, p.stage? u = some s ∧ s.Mentions g) ∨ g ∈ p.registrar.registrations := by
    intro c s s' hc hn hc' hg
    rcases mentions_of_next hn hg with hold | ⟨rfl, gs, rfl⟩
    · exact .inl ⟨c, s, hc, hold⟩
    · rcases h.waiting_cases hs hc with ⟨hwait, -⟩ | ⟨-, -, -, ⟨-, hended, -⟩ | hdrain⟩
      · rw [hc'] at hwait
        cases hwait
      · rw [hc'] at hended
        cases hended
      · rw [hc'] at hdrain
        cases hdrain
        exact .inr hg
  rcases h.sound.came_step hs hu with he | ⟨s, hsu, hn⟩ | ⟨hnone, hfresh⟩
  · exact .inl ⟨u, s', he, hg⟩
  · exact of_next hsu hn hu hg
  · -- a task that is new unpublishes for a teardown, which knows about it
    cases s' with
    | unpublishing g' =>
      obtain rfl : g' = g := hg
      have hparent := (h.sound.grown_step hs).parent?_of_fresh hnone hu
      have hq := h.step hs
      rcases hq.kin.part_cases hq.sound.parents hu hparent with
        ⟨b, -, hmember⟩ | ⟨d, m, hd, hm, -, hstage⟩ | ⟨o, ho⟩
      · exact hmember.elim
      · have hmention : g' ∈ d.snapshot := by
          rcases Stage.ofRemoval_cases m with he | ⟨o, he⟩
          · rw [he] at hstage
            cases hstage
            exact List.mem_append_left _ (List.mem_map_of_mem hm)
          · rw [he] at hstage
            cases hstage
        rcases h.sound.came_step hs hd with he | ⟨s, hsu, hn⟩ | ⟨-, hfresh⟩
        · exact .inl ⟨t, _, he, hmention⟩
        · exact of_next hsu hn hd hmention
        · exact hfresh.elim
      · cases ho
    | asked request => cases request <;> first | exact hg.elim | exact hfresh.elim
    | draining d => exact hfresh.elim
    | _ => exact hg.elim

/-- **In a reply** no task comes to be about anything else. -/
theorem Sound.mentions_reply (h : p.Sound) (hs : Reply t p q) (hu : q.stage? u = some s')
    (hg : s'.Mentions g) : ∃ s, p.stage? u = some s ∧ s.Mentions g := by
  rcases h.came_reply hs hu with he | ⟨s, hsu, hn⟩
  · exact ⟨s', he, hg⟩
  · rcases mentions_of_next hn hg with hold | ⟨rfl, gs, rfl⟩
    · exact ⟨s, hsu, hold⟩
    · rw [h.stage?_reply hs hsu id id] at hu
      cases hu

/-! ## What is live -/

/-- The end of a task does not make anything live. -/
theorem live?_finish (hself : p.parent? t ≠ some t) (ht : p.stage? t = some s) (o : Outcome)
    (hg : (p.finish t o).registrar.live? k = some g) : p.registrar.live? k = some g := by
  rcases registrar_finish hself ht o with hr | ⟨c, d, -, -, -, hr, -⟩
  · rwa [hr] at hg
  · rw [hr, Registrar.live?_release] at hg
    cases hg

/-- A task ends after the registrar was changed for it: what is live then was live by the change. -/
theorem Sound.live?_of_finish (h : p.Sound) (ht : p.stage? t = some s) {p' : Publisher}
    (htasks : p'.tasks = p.tasks) (hg : (p'.finish t o).registrar.live? k = some g) :
    p'.registrar.live? k = some g := by
  have hself : p'.parent? t ≠ some t := by
    rw [parent?_congr htasks]
    exact h.parents.ne_self t
  exact live?_finish hself ((stage?_congr htasks t).trans ht) o hg

/-- **What a reply makes live** was made by it. -/
theorem Sound.live?_of_reply (h : p.Sound) (hs : Reply t p q)
    (hg : q.registrar.live? k = some g) : p.registrar.live? k = some g ∨ q.Made g := by
  cases hs with
  | commit k' handle d record ht =>
    have hlive := h.live?_of_finish ht (by simp) hg
    rw [registrar_withRegistered, Registrar.live?_register] at hlive
    split at hlive
    · right
      cases hlive
      exact ⟨t, h.ended_finish (by simp) ht _⟩
    · exact .inl hlive
  | lose k' handle d outcome ht ho =>
    have hlive := h.live?_of_finish ht (by simp) hg
    rw [registrar_wakeIdle, registrar_withRegistrar, Registrar.live?_abandon] at hlive
    exact .inl hlive
  | remove g' ht =>
    have hlive := h.live?_of_finish ht (by simp) hg
    rw [registrar_withdraw, registrar_withRegistrar, Registrar.live?_unregister] at hlive
    split at hlive
    · cases hlive
    · exact .inl hlive
  | keep g' cause ht => exact .inl (h.live?_of_finish ht rfl hg)
  | tried s outcome ht hs ho => exact .inl (h.live?_of_finish ht rfl hg)

/-- **A publisher is acquainted** with what is live and with what its tasks are about: it has made
all of these. -/
structure Acquainted (p : Publisher) : Prop where
  live : ∀ k g, p.registrar.live? k = some g → p.Made g
  mentioned : ∀ t s g, p.stage? t = some s → s.Mentions g → p.Made g

theorem acquainted_fresh (id : String) (listening : Bool) (limit : Option Nat) :
    (fresh id listening limit).Acquainted where
  live k g hg := by simp [fresh, Registrar.live?] at hg
  mentioned t s g ht := by simp [fresh, stage?] at ht

theorem Acquainted.ask (hknown : p.Acquainted) {request : Request}
    (hmade : ∀ g, request = .unpublish g → p.Made g) : (p.ask request).Acquainted where
  live k g hg := (made_ask request).2 (hknown.live k g hg)
  mentioned t s g ht hg := by
    rw [made_ask]
    rcases stage?_of_ask ht with ht | rfl
    · exact hknown.mentioned t s g ht hg
    · cases request with
      | unpublish g' =>
        obtain rfl : g' = g := hg
        exact hmade g' rfl
      | _ => exact hg.elim

theorem Acquainted.step (hknown : p.Acquainted) (h : p.Owned) (hs : Step t p q) :
    q.Acquainted where
  live k g hg := by
    rw [h.live?_step hs] at hg
    exact (h.sound.made_step hs).2 (hknown.live k g hg)
  mentioned u s g hu hg := by
    rw [h.sound.made_step hs]
    rcases h.mentions_step hs hu hg with ⟨u', s', hu', hg'⟩ | hlive
    · exact hknown.mentioned u' s' g hu' hg'
    · obtain ⟨k, hk⟩ := Registrar.mem_registrations_iff.1 hlive
      exact hknown.live k g hk

theorem Acquainted.reply (hknown : p.Acquainted) (h : p.Sound) (hs : Reply t p q) :
    q.Acquainted where
  live k g hg := by
    rcases h.live?_of_reply hs hg with hold | hmade
    · exact (hknown.live k g hold).mono fun u => (h.advances_reply hs u).goes
    · exact hmade
  mentioned u s g hu hg := by
    obtain ⟨s', hs', hg'⟩ := h.mentions_reply hs hu hg
    exact (hknown.mentioned u s' g hs' hg').mono fun u => (h.advances_reply hs u).goes

end Publisher
end SchemaHerald
