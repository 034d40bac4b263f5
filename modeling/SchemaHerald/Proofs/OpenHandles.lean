import SchemaHerald.MemoryRegistry
import SchemaHerald.Proofs.Commitments

/-!
# Handles are open while they are published through

A registrar shuts handles only when it is released, which happens when nothing is reserved and
nothing can be any more (`Registrar.ShutsLate`). A task that publishes has a reservation, so that
its handle is open, and it is the one that is stored for its registry (`Sound.serves`). The task
keeps it until the registry answers (`Sound.publishing_move`), and no task ends with a registration
in any other way (`Sound.committed_move`). `openHandles_moves` puts these together, for every list of
moves whatsoever.
-/
namespace SchemaHerald

namespace Registrar

open Relation

variable {r r' : Registrar}

/-- **Handles are shut late**: only when nothing is reserved and nothing can be. -/
def ShutsLate (r : Registrar) : Prop := r.shut ≠ [] → r.Quiet

/-- **A registrar serves** a registry with a handle: it is the one stored under the registry's name,
and it is open. -/
structure Serves (r : Registrar) (registry : String) (h : Handle) : Prop where
  stored : r.handles.get? registry = some h
  name : h.name = registry
  isOpen : r.isShut h = false

/-- A registrar that shuts nothing and stays quiet if it is so shuts late still. -/
theorem ShutsLate.mono (h : r.ShutsLate) (hshut : r'.shut = r.shut)
    (hquiet : r.Quiet → r'.Quiet) : r'.ShutsLate := by
  intro hne
  rw [hshut] at hne
  exact hquiet (h hne)

theorem ShutsLate.change (h : r.ShutsLate) (hc : r.Change r') : r'.ShutsLate := by
  have hquiet : r.Quiet → r'.Quiet := fun hq => hq.change hc
  cases hc with
  | reserve o schema k r₁ hr =>
    refine h.mono ?_ hquiet
    rw [shut_handleFor, (reserve_eq_ok_iff.1 hr).2.2.2]
  | unregister g => exact h.mono (shut_unregister g) hquiet
  | commit | abandon | close => exact h.mono rfl hquiet
  | release hc h0 => exact fun _ => ⟨hc, h0⟩

theorem ShutsLate.changes (h : r.ShutsLate) (hc : r.Changes r') : r'.ShutsLate := by
  induction hc with
  | refl => exact h
  | tail _ hstep ih => exact ih.change hstep

/-- A direct use of the registrar shuts no handle. -/
theorem ShutsLate.use (h : r.ShutsLate) (hu : r.Use r') : r'.ShutsLate := by
  refine h.mono ?_ fun hquiet => hquiet.use hu
  cases hu with
  | reserve registry schema k _ hr => rw [(reserve_eq_ok_iff.1 hr).2.2.2]
  | unregister g => exact shut_unregister g
  | handleFor o => exact shut_handleFor o
  | refused | drop | register | newHandle => rfl

/-- As long as something is reserved no handle is shut. -/
theorem ShutsLate.shut_eq_nil (h : r.ShutsLate) (hbusy : r.inFlight ≠ 0) : r.shut = [] := by
  by_contra hne
  exact hbusy (h hne).idle

end Registrar

/-- **A memory registry refuses no handle that is open.** -/
theorem MemoryRegistry.publish_of_open (m : MemoryRegistry) (h : Handle) (d : Definition) :
    m.publish false h d = .ok (m.recordFor h d,
      { m with stored := m.stored ++ [⟨h.name, m.recordFor h d⟩], made := m.made + 1 }) := rfl

namespace Publisher

open Relation

variable {p q : Publisher} {t : Nat} {k : Key} {h : Handle} {d : Definition} {g : Registration}

/-! ## When handles are shut -/

theorem shutsLate_move (hlate : p.registrar.ShutsLate) (hsound : p.Sound) (m : Move) :
    (p.move m).registrar.ShutsLate := by
  cases hm : m.isDirect with
  | true => exact hlate.use (hsound.use_move hm)
  | false => exact hlate.changes (hsound.changes_move hm)

/-- **At all times** handles are shut late. -/
theorem shutsLate_moves (hlate : p.registrar.ShutsLate) (hsound : p.Sound) (ms : List Move) :
    (p.moves ms).registrar.ShutsLate := by
  induction ms generalizing p with
  | nil => exact hlate
  | cons m ms ih => exact ih (shutsLate_move hlate hsound m) (hsound.move m)

theorem shutsLate_fresh (id : String) (listening : Bool) (limit : Option Nat) :
    (fresh id listening limit).registrar.ShutsLate := fun hne => absurd rfl hne

/-! ## Tasks that publish -/

/-- **The handle of a task that publishes** is open, and is the one of its registry. -/
theorem Sound.serves (hp : p.Sound) (hlate : p.registrar.ShutsLate)
    (ht : p.stage? t = some (.publishing k h d)) : p.registrar.Serves k.registry h := by
  have hstored := (hp.fits t _ ht).2.2
  refine ⟨hstored, hp.named _ _ hstored, ?_⟩
  rw [Registrar.isShut, hlate.shut_eq_nil (hp.not_idle ht)]
  rfl

/-- **How a publish ends** that was under way: as the registry answered. -/
def Answered (q : Publisher) (t : Nat) (k : Key) (h : Handle) : Answer → Prop
  | .record record => ∃ g, q.outcome? t = some (.registered g) ∧ g.handle = h ∧ g.record = record
  | .refused cause => q.outcome? t = some (.failed (.remote k.registry k.schema cause))
  | .broken message => q.outcome? t = some (.broken message)

theorem Sound.answered (hp : p.Sound) (ht : p.stage? t = some (.publishing k h d))
    (answer : Answer) : Answered (p.answerPublish t answer) t k h answer := by
  simp only [answerPublish, ht]
  cases answer with
  | record record =>
    refine ⟨_, outcome?_eq_some_iff.2 (hp.ended_finish ?_ ht _), rfl, rfl⟩
    split <;> simp
  | refused cause => exact outcome?_eq_some_iff.2 (hp.ended_finish (by simp) ht _)
  | broken message => exact outcome?_eq_some_iff.2 (hp.ended_finish (by simp) ht _)

/-- **A task that publishes** goes on with its handle until the registry answers. -/
theorem Sound.publishing_move (hp : p.Sound) (ht : p.stage? t = some (.publishing k h d))
    (m : Move) : (p.move m).stage? t = some (.publishing k h d) ∨
      ∃ answer, m = .answerPublish t answer ∧ Answered (p.move m) t k h answer := by
  have steps : ∀ {u q}, ReflTransGen (Step u) p q → q.stage? t = some (.publishing k h d) := by
    intro u q hs
    have hboth : q.Sound ∧ q.stage? t = some (.publishing k h d) := by
      induction hs with
      | refl => exact ⟨hp, ht⟩
      | tail _ hstep ih => exact ⟨ih.1.step hstep, ih.1.stage?_step_of_still hstep ih.2 trivial⟩
    exact hboth.2
  have other : ∀ {u q}, t ≠ u → (q = p ∨ Reply u p q) → q.stage? t = some (.publishing k h d) := by
    rintro u q hne (rfl | hs)
    · exact ht
    · exact hp.stage?_reply_of_ne hs hne ht (.inl id)
  cases m with
  | ask request => exact .inl (stage?_ask_of_some request ht)
  | abandon u => exact .inl (steps (abandon_steps p u))
  | run u => exact .inl (steps (run_steps p u))
  | answerPublish u answer =>
    by_cases hne : t = u
    · subst hne
      exact .inr ⟨answer, rfl, hp.answered ht answer⟩
    · exact .inl (other hne (answerPublish_reply p u answer))
  | answerUnpublish u answer =>
    by_cases hne : t = u
    · subst hne
      -- it is no task that waits to hear of an unpublish
      left
      simp only [Publisher.move, answerUnpublish, ht]
    · exact .inl (other hne (answerUnpublish_reply p u answer))
  | reserve | drop | register | unregister | newHandle | handleFor =>
    exact .inl ((stage?_congr (tasks_of_isDirect p rfl) t).trans ht)

/-- A registration that a task ends with has the handle through which the task published, which the
registry is served with still. -/
theorem Sound.serves_reply (hp : p.Sound) (hlate : p.registrar.ShutsLate) (hs : Reply t p q)
    {u : Nat} (hu : q.stage? u = some (.ended (.registered g)))
    (hnew : p.stage? u ≠ some (.ended (.registered g))) :
    ∃ k d, p.stage? u = some (.publishing k g.handle d) ∧
      q.registrar.Serves k.registry g.handle := by
  rcases hp.registered_reply hs hu with he | ⟨rfl, k, h, d, record, ht, rfl, hq⟩
  · exact absurd he hnew
  · have hserves := hp.serves hlate ht
    refine ⟨k, d, ht, ?_⟩
    rw [hq]
    exact ⟨hserves.stored, hserves.name, hserves.isOpen⟩

/-- **A task ends with a registration** only by the answer to its publish, through the handle that it
had all the time. -/
theorem Sound.committed_move (hp : p.Sound) (hlate : p.registrar.ShutsLate) (m : Move)
    (hnone : p.outcome? t = none) (hg : (p.move m).outcome? t = some (.registered g)) :
    ∃ k d, p.stage? t = some (.publishing k g.handle d) ∧
      (p.move m).registrar.Serves k.registry g.handle := by
  rw [outcome?_eq_some_iff] at hg
  have hnew : p.stage? t ≠ some (.ended (.registered g)) := fun he => by
    rw [outcome?_eq_some_iff.2 he] at hnone
    cases hnone
  -- whatever is no answer leaves the registrations that tasks have ended with as they are
  have steps : ∀ {u q}, ReflTransGen (Step u) p q →
      q.stage? t = some (.ended (.registered g)) → p.stage? t = some (.ended (.registered g)) := by
    intro u q hs hu
    induction hs with
    | refl => exact hu
    | tail hsteps hstep ih => exact ih ((hp.steps hsteps).registered_step hstep hu)
  have reply : ∀ {u q}, (q = p ∨ Reply u p q) → q.stage? t = some (.ended (.registered g)) →
      ∃ k d, p.stage? t = some (.publishing k g.handle d) ∧
        q.registrar.Serves k.registry g.handle := by
    rintro u q (rfl | hs) hu
    · exact absurd hu hnew
    · exact hp.serves_reply hlate hs hu hnew
  cases m with
  | ask request => exact absurd (ended_of_ask hg) hnew
  | abandon u => exact absurd (steps (abandon_steps p u) hg) hnew
  | run u => exact absurd (steps (run_steps p u) hg) hnew
  | answerPublish u answer => exact reply (answerPublish_reply p u answer) hg
  | answerUnpublish u answer => exact reply (answerUnpublish_reply p u answer) hg
  | reserve | drop | register | unregister | newHandle | handleFor =>
    rw [stage?_congr (tasks_of_isDirect p rfl)] at hg
    exact absurd hg hnew

/-! ## At all times -/

/-- **Handles are open while they are published through.** -/
structure OpenHandles (p : Publisher) : Prop where
  /-- The handle of a task that publishes is open, and is the one stored for its registry. -/
  publishing : ∀ t k h d, p.stage? t = some (.publishing k h d) → p.registrar.Serves k.registry h
  /-- Whatever happens next, the task publishes through it still, or the registry has answered. -/
  goesOn : ∀ (m : Move) t k h d, p.stage? t = some (.publishing k h d) →
    (p.move m).stage? t = some (.publishing k h d) ∨
      ∃ answer, m = .answerPublish t answer ∧ Answered (p.move m) t k h answer
  /-- A registration is made through such a handle only, which is open then, and stored. -/
  committed : ∀ (m : Move) t g, p.outcome? t = none →
    (p.move m).outcome? t = some (.registered g) →
    ∃ k d, p.stage? t = some (.publishing k g.handle d) ∧
      (p.move m).registrar.Serves k.registry g.handle
  /-- The registry in memory never refuses a publish because the handle is shut. -/
  accepted : ∀ t k h d, p.stage? t = some (.publishing k h d) → ∀ memory : MemoryRegistry,
    ∃ stored, memory.publish (p.registrar.isShut h) h d = .ok (memory.recordFor h d, stored)

/-- **At all times of every run**, whoever moves, no publish is under way through a handle that is
shut. -/
theorem openHandles_moves (id : String) (listening : Bool) (limit : Option Nat) (ms : List Move) :
    ((fresh id listening limit).moves ms).OpenHandles := by
  have hsound := (sound_fresh id listening limit).moves ms
  have hlate := shutsLate_moves (shutsLate_fresh id listening limit)
    (sound_fresh id listening limit) ms
  refine ⟨fun t k h d ht => hsound.serves hlate ht,
    fun m t k h d ht => hsound.publishing_move ht m,
    fun m t g hnone hg => hsound.committed_move hlate m hnone hg, fun t k h d ht memory => ?_⟩
  rw [(hsound.serves hlate ht).isOpen]
  exact ⟨_, memory.publish_of_open h d⟩

end Publisher
end SchemaHerald
