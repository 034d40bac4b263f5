import SchemaHerald.Proofs.Kinship
import SchemaHerald.Proofs.RegistrarChanges

/-!
# Runs of a publisher's own callers

A publisher's own callers publish, unpublish, close and give up on batches; they do not use the
registrar directly and do not have the registry called behind its back. `Owned` collects what holds
as long as nobody else does either. `owned_moves` is the start of every theorem about such runs.
-/
namespace SchemaHerald

/-- Whether a request is one that a publisher's own callers make. -/
def Request.isOwn : Request → Bool
  | .publish .. | .publishAll .. | .unpublish _ | .close .unpublishing => true
  | .close (.sweeping ..) | .tryPublish .. | .tryUnpublish _ => false

/-- Whether a move is one of a publisher's own callers, of its tasks or of the registry. -/
def Move.isOwn : Move → Bool
  | .ask request => request.isOwn
  | .abandon _ | .run _ | .answerPublish .. | .answerUnpublish .. => true
  | _ => false

theorem Move.not_isDirect_of_isOwn {m : Move} (h : m.isOwn = true) : m.isDirect = false := by
  cases m <;> first | rfl | cases h

/-- The stages that tasks of a publisher's own callers come to. -/
def Stage.IsOwn : Stage → Prop
  | .asked request => request.isOwn = true
  | .tryingPublish .. | .tryingUnpublish _ => False
  | .waiting td => td = .unpublishing
  | _ => True

theorem Stage.IsOwn.next {s s' : Stage} (hn : s.Next s') (h : s.IsOwn) : s'.IsOwn := by
  cases hn with
  | tryPublish | tryUnpublish => cases h
  | close td => cases td <;> first | rfl | cases h
  | _ => trivial

theorem Stage.IsFresh.isOwn {s : Stage} (h : s.IsFresh) : s.IsOwn := by
  cases s with
  | asked request => cases request <;> first | rfl | exact h.elim
  | unpublishing => trivial
  | _ => exact h.elim

namespace Publisher

open Relation

variable {p q : Publisher} {t u : Nat} {s : Stage} {o : Outcome}

/-- **What holds while only its own callers use a publisher.** -/
structure Owned (p : Publisher) : Prop where
  sound : p.Sound
  kin : p.Kin
  tidy : p.registrar.Tidy
  held : p.held = []
  stages : ∀ t s, p.stage? t = some s → s.IsOwn

theorem held_step (hs : Step t p q) : q.held = p.held := by
  cases hs <;> simp [beginUnpublish, withBatch, withRemoval]

theorem held_reply (hs : Reply t p q) : q.held = p.held := by
  cases hs <;> simp

theorem owned_fresh (id : String) (listening : Bool) (limit : Option Nat) :
    (fresh id listening limit).Owned where
  sound := sound_fresh id listening limit
  kin := kin_fresh id listening limit
  tidy k g hg := by simp [fresh, Registrar.live?] at hg
  held := rfl
  stages t s ht := by simp [fresh, stage?] at ht

/-- **A step** keeps a publisher its callers' own. -/
theorem Owned.step (h : p.Owned) (hs : Step t p q) : q.Owned where
  sound := h.sound.step hs
  kin := h.kin.step h.sound hs
  tidy := (h.sound.changes_step hs).tidy h.tidy
  held := (held_step hs).trans h.held
  stages := by
    intro u s hu
    rcases h.sound.came_step hs hu with he | ⟨s', hs', hn⟩ | ⟨-, hfresh⟩
    · exact h.stages u s he
    · exact (h.stages u s' hs').next hn
    · exact hfresh.isOwn

theorem Owned.steps (h : p.Owned) (hs : ReflTransGen (Step t) p q) : q.Owned := by
  induction hs with
  | refl => exact h
  | tail _ hstep ih => exact ih.step hstep

/-- **A reply** keeps a publisher its callers' own. -/
theorem Owned.reply (h : p.Owned) (hs : Reply t p q) : q.Owned where
  sound := h.sound.reply hs
  kin := h.kin.reply h.sound hs
  tidy := (h.sound.changes_reply hs).tidy h.tidy
  held := (held_reply hs).trans h.held
  stages := by
    intro u s hu
    rcases h.sound.came_reply hs hu with he | ⟨s', hs', hn⟩
    · exact h.stages u s he
    · exact (h.stages u s' hs').next hn

theorem Owned.ask (h : p.Owned) {request : Request} (hr : request.isOwn = true) :
    (p.ask request).Owned where
  sound := h.sound.ask request
  kin := h.kin.ask h.sound request
  tidy := h.tidy
  held := h.held
  stages := by
    intro u s hu
    rcases stage?_of_ask hu with hu | rfl
    · exact h.stages u s hu
    · exact hr

/-- **What asking, steps and replies keep** is kept by every move of its own. -/
theorem Owned.move_induction {P : Publisher → Prop} (h : p.Owned) {m : Move} (hm : m.isOwn = true)
    (hask : ∀ request, request.isOwn = true → P (p.ask request))
    (hstep : ∀ t q q', q.Owned → Step t q q' → P q → P q')
    (hreply : ∀ t q, Reply t p q → P q) (hp : P p) : P (p.move m) := by
  have hboth : (p.move m).Owned ∧ P (p.move m) := by
    refine Publisher.move_induction (P := fun q => q.Owned ∧ P q) m ?_ ?_ ?_ ?_ ⟨h, hp⟩
    · rintro request rfl
      exact ⟨h.ask hm, hask request hm⟩
    · exact fun t q q' hs ⟨hq, hpq⟩ => ⟨hq.step hs, hstep t q q' hq hs hpq⟩
    · exact fun t q hs => ⟨h.reply hs, hreply t q hs⟩
    · intro hd
      rw [Move.not_isDirect_of_isOwn hm] at hd
      cases hd
  exact hboth.2

/-- **A move of its own** keeps a publisher its callers' own. -/
theorem Owned.move (h : p.Owned) {m : Move} (hm : m.isOwn = true) : (p.move m).Owned :=
  h.move_induction hm (fun _ hr => h.ask hr) (fun _ _ _ hq hs _ => hq.step hs)
    (fun _ _ hs => h.reply hs) h

theorem Owned.moves (h : p.Owned) {ms : List Move} (hms : ∀ m ∈ ms, m.isOwn = true) :
    (p.moves ms).Owned := by
  induction ms generalizing p with
  | nil => exact h
  | cons m ms ih =>
    exact ih (h.move (hms m List.mem_cons_self)) fun m' hm' => hms m' (List.mem_cons_of_mem _ hm')

/-- **At all times** of a run of its own callers. -/
theorem owned_moves (id : String) (listening : Bool) (limit : Option Nat) {ms : List Move}
    (hms : ∀ m ∈ ms, m.isOwn = true) : ((fresh id listening limit).moves ms).Owned :=
  (owned_fresh id listening limit).moves hms

theorem Owned.changes_moves (h : p.Owned) {ms : List Move} (hms : ∀ m ∈ ms, m.isOwn = true) :
    p.registrar.Changes (p.moves ms).registrar := by
  induction ms generalizing p with
  | nil => exact .refl
  | cons m ms ih =>
    have hm := hms m List.mem_cons_self
    exact (h.sound.changes_move (Move.not_isDirect_of_isOwn hm)).trans
      (ih (h.move hm) fun m' hm' => hms m' (List.mem_cons_of_mem _ hm'))

/-- The reservations that are out are those of the tasks that publish. -/
theorem Owned.claimed (h : p.Owned) : p.registrar.Claimed p.flights := by
  have hclaimed := h.sound.claimed
  rwa [claims, h.held, List.nil_append] at hclaimed

/-- A key is taken by a task that publishes or by a registration under it. -/
theorem Owned.taken_iff (h : p.Owned) (k : Key) :
    (∃ slot, p.registrar.slots.get? k = some slot) ↔
      k ∈ p.flights ∨ ∃ g ∈ p.registrar.registrations, g.key = k := by
  constructor
  · rintro ⟨slot, hslot⟩
    cases slot with
    | reserved => exact .inl ((h.claimed.reserved k).1 hslot)
    | live g =>
      have hlive := Registrar.live?_eq_some_iff.2 hslot
      exact .inr ⟨g, Registrar.mem_registrations_iff.2 ⟨k, hlive⟩, (h.tidy k g hlive).2.1⟩
  · rintro (hk | ⟨g, hg, rfl⟩)
    · exact ⟨_, (h.claimed.reserved k).2 hk⟩
    · obtain ⟨k, hk⟩ := Registrar.mem_registrations_iff.1 hg
      rw [(h.tidy k g hk).2.1]
      exact ⟨_, Registrar.live?_eq_some_iff.1 hk⟩

end Publisher
end SchemaHerald
