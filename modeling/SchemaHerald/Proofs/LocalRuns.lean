import SchemaHerald.Proofs.MadeRegistrations
import SchemaHerald.Proofs.MemoryRecords

/-!
# A publisher with the registry in memory

Calls to the registry may be held up for as long as one likes, and may fail before they get there; one
that gets there is answered at once (`LocalPublisher.call`, which is what a session does with the
registry in memory, `answer_memory`). `Effect` lists what a move comes to. `Sane` is what holds at all
times: every record that is stored is the one of a registration that was made, and no two registrations
have the same id.
-/
namespace SchemaHerald

/-- A publisher and the registry in memory that it publishes to. -/
structure LocalPublisher where
  /-- The publisher. -/
  publisher : Publisher
  /-- The registry. -/
  memory : MemoryRegistry

/-- What can happen to a publisher and its registry. -/
inductive LocalMove
  /-- Something that does not get to the registry. -/
  | apart (move : Move)
  /-- The call of a task gets to the registry. -/
  | call (task : Nat)

namespace LocalPublisher

open Relation Publisher

/-- Nothing was asked for and nothing is stored yet. -/
def fresh (base : Option String) (id : String) (listening : Bool) (limit : Option Nat) :
    LocalPublisher :=
  ⟨.fresh id listening limit, { baseUrl := base }⟩

/-- The call of a task gets to the registry, and the task is told the answer. -/
def call (l : LocalPublisher) (task : Nat) : LocalPublisher :=
  match l.publisher.stage? task with
  | some (.publishing _ handle definition) =>
    let shut := l.publisher.registrar.isShut handle
    let (answer, memory) := l.memory.answerPublish shut handle definition
    ⟨l.publisher.answerPublish task answer, memory⟩
  | some (.unpublishing registration) =>
    let (answer, memory) := l.memory.answerUnpublish registration
    ⟨l.publisher.answerUnpublish task answer, memory⟩
  | _ => l

/-- The publisher and its registry after a move. -/
def move (l : LocalPublisher) : LocalMove → LocalPublisher
  | .apart m => { l with publisher := l.publisher.move m }
  | .call task => l.call task

/-- The publisher and its registry after a list of moves. -/
def moves (l : LocalPublisher) (ms : List LocalMove) : LocalPublisher := ms.foldl move l

/-- **What may happen next**: callers publish, close, give up on batches and ask to unpublish what the
publisher has made; tasks take turns; and calls get to the registry or fail before they do. -/
def Allows (l : LocalPublisher) : LocalMove → Prop
  | .apart (.ask (.unpublish g)) => l.publisher.Made g
  | .apart (.answerPublish _ (.record _)) | .apart (.answerUnpublish _ (.ok _)) => False
  | .apart m => m.isOwn = true
  | .call _ => True

/-- All moves of a list may happen, one after the other. -/
def AllowsAll (l : LocalPublisher) : List LocalMove → Prop
  | [] => True
  | m :: ms => l.Allows m ∧ (l.move m).AllowsAll ms

variable {l l' : LocalPublisher} {t : Nat} {g g' : Registration}

theorem moves_append (l : LocalPublisher) (ms ms' : List LocalMove) :
    l.moves (ms ++ ms') = (l.moves ms).moves ms' := List.foldl_append

theorem moves_concat (l : LocalPublisher) (ms : List LocalMove) (m : LocalMove) :
    l.moves (ms ++ [m]) = (l.moves ms).move m := List.foldl_append

theorem allowsAll_append {ms ms' : List LocalMove} :
    l.AllowsAll (ms ++ ms') ↔ l.AllowsAll ms ∧ (l.moves ms).AllowsAll ms' := by
  induction ms generalizing l with
  | nil => simp [AllowsAll, moves]
  | cons m ms ih =>
    rw [List.cons_append, AllowsAll, AllowsAll, ih, and_assoc]
    rfl

theorem allowsAll_concat {ms : List LocalMove} {m : LocalMove} :
    l.AllowsAll (ms ++ [m]) ↔ l.AllowsAll ms ∧ (l.moves ms).Allows m := by
  rw [allowsAll_append, AllowsAll, AllowsAll, and_true]

/-- **A session** with the registry in memory answers the calls of a publisher in the same way. -/
theorem answer_memory (r : Session MemoryRegistry)
    (hown : ∀ s, r.publisher.stage? t = some s → s.IsOwn) :
    (⟨(r.answer Client.memory t).publisher, (r.answer Client.memory t).state⟩ : LocalPublisher) =
      call ⟨r.publisher, r.state⟩ t := by
  unfold Session.answer call
  cases hs : r.publisher.stage? t with
  | none => rfl
  | some s =>
    have hs' := hown s hs
    cases s with
    | tryingPublish | tryingUnpublish => exact hs'.elim
    | _ => rfl

/-! ## What a move comes to -/

/-- The publisher and its registry after a record was made of what a task publishes. -/
def committed (l : LocalPublisher) (t : Nat) (k : Key) (handle : Handle) (d : Definition) :
    LocalPublisher where
  publisher := (l.publisher.withRegistered k (l.memory.recordFor handle d) handle).finish t
    (.registered (l.publisher.registrar.register k (l.memory.recordFor handle d) handle
      l.publisher.listening).1)
  memory := l.memory.withRecord handle d

/-- The publisher and its registry after the record of a registration was taken away. -/
def removed (l : LocalPublisher) (t : Nat) (g : Registration) : LocalPublisher where
  publisher := ((l.publisher.withRegistrar (l.publisher.registrar.unregister g)).withdraw g).finish t
    .done
  memory := l.memory.without g

/-- **What the answer to the call of a task comes to**, whether the call got to the registry or not. -/
inductive Answered (t : Nat) (l : LocalPublisher) : LocalPublisher → Prop
  /-- A publish becomes a registration, and its record is stored. -/
  | commit (k : Key) (handle : Handle) (d : Definition)
      (ht : l.publisher.stage? t = some (.publishing k handle d)) :
      Answered t l (l.committed t k handle d)
  /-- A publish fails or breaks off, and nothing is stored. -/
  | lose (k : Key) (handle : Handle) (d : Definition) (outcome : Outcome)
      (ht : l.publisher.stage? t = some (.publishing k handle d))
      (ho : (∃ cause, outcome = .failed (.remote k.registry k.schema cause)) ∨
        ∃ message, outcome = .broken message) :
      Answered t l { l with publisher :=
        (l.publisher.withRegistrar (l.publisher.registrar.abandon k)).wakeIdle.finish t outcome }
  /-- The record of a registration is taken away, and the registration with it. -/
  | remove (g : Registration) (ht : l.publisher.stage? t = some (.unpublishing g)) :
      Answered t l (l.removed t g)
  /-- An unpublish fails, and everything stays. -/
  | keep (g : Registration) (cause : Cause)
      (ht : l.publisher.stage? t = some (.unpublishing g)) :
      Answered t l { l with
        publisher := l.publisher.finish t (.failed (.remote g.registry g.schema cause)) }

theorem Answered.reply (ha : Answered t l l') : Reply t l.publisher l'.publisher := by
  cases ha with
  | commit k handle d ht => exact .commit k handle d (l.memory.recordFor handle d) ht
  | lose k handle d outcome ht ho => exact .lose k handle d outcome ht ho
  | remove g ht => exact .remove g ht
  | keep g cause ht => exact .keep g cause ht

/-- **What happens to a publisher and its registry.** -/
inductive Effect (l : LocalPublisher) : LocalPublisher → Prop
  /-- Something is asked for. -/
  | ask (request : Request) (hr : request.isOwn = true)
      (hmade : ∀ g, request = .unpublish g → l.publisher.Made g) :
      Effect l { l with publisher := l.publisher.ask request }
  /-- A task takes a step. -/
  | step (t : Nat) (q : Publisher) (hs : Step t l.publisher q) : Effect l { l with publisher := q }
  /-- A task is told the answer to its call. -/
  | answer (t : Nat) (l' : LocalPublisher) (ha : Answered t l l') : Effect l l'

theorem effects_of_steps {q : Publisher} (hs : ReflTransGen (Step t) l.publisher q) :
    ReflTransGen Effect l { l with publisher := q } := by
  induction hs with
  | refl => exact .refl
  | tail _ hstep ih => exact ih.tail (.step t _ hstep)

/-- **Who waits for an answer** is told one when the call gets to the registry. -/
theorem answered_of_calling {s : Stage} (ht : l.publisher.stage? t = some s) (hcall : s.IsCalling)
    (hown : s.IsOwn) : Answered t l (l.call t) := by
  unfold call
  cases s with
  | publishing k handle d =>
    rcases l.memory.answerPublish_cases (l.publisher.registrar.isShut handle) handle d with
      ⟨cause, he⟩ | he
    · simp only [ht, he, answerPublish]
      exact .lose k handle d _ ht (.inl ⟨cause, rfl⟩)
    · simp only [ht, he, answerPublish]
      exact .commit k handle d ht
  | unpublishing g =>
    rcases l.memory.answerUnpublish_cases g with ⟨⟨cause, he⟩, -⟩ | ⟨he, -⟩
    · simp only [ht, he, answerUnpublish]
      exact .keep g cause ht
    · simp only [ht, he, answerUnpublish]
      exact .remove g ht
  | tryingPublish | tryingUnpublish => exact hown.elim
  | _ => exact hcall.elim

theorem call_answered (l : LocalPublisher) (t : Nat) : l.call t = l ∨ Answered t l (l.call t) := by
  cases hs : l.publisher.stage? t with
  | none => exact .inl (by simp only [call, hs])
  | some s =>
    cases s with
    | publishing | unpublishing => exact .inr (answered_of_calling hs trivial trivial)
    | _ => exact .inl (by simp only [call, hs])

/-- **What a move is**: something is asked for, a batch is given up, a task takes its turn, or a task is
told an answer. -/
theorem move_cases {m : LocalMove} (hm : l.Allows m) (hown : l.publisher.Owned) :
    (∃ request, m = .apart (.ask request) ∧ request.isOwn = true ∧
        ∀ g, request = .unpublish g → l.publisher.Made g) ∨
      (∃ t, m = .apart (.abandon t)) ∨ (∃ t, m = .apart (.run t)) ∨
      l.move m = l ∨ ∃ t, Answered t l (l.move m) := by
  cases m with
  | call t =>
    rcases l.call_answered t with he | ha
    · exact .inr (.inr (.inr (.inl he)))
    · exact .inr (.inr (.inr (.inr ⟨t, ha⟩)))
  | apart m =>
    cases m with
    | ask request =>
      left
      cases request with
      | unpublish g =>
        refine ⟨_, rfl, rfl, ?_⟩
        intro g' he
        cases he
        exact hm
      | _ => exact ⟨_, rfl, hm, fun g he => by cases he⟩
    | abandon t => exact .inr (.inl ⟨t, rfl⟩)
    | run t => exact .inr (.inr (.inl ⟨t, rfl⟩))
    | answerPublish t answer =>
      right; right; right
      show ({ l with publisher := l.publisher.answerPublish t answer } : LocalPublisher) = l ∨
        ∃ t', Answered t' l { l with publisher := l.publisher.answerPublish t answer }
      unfold answerPublish
      split
      · rename_i k handle d ht
        cases answer with
        | record record => exact hm.elim
        | refused cause => exact .inr ⟨t, .lose k handle d _ ht (.inl ⟨cause, rfl⟩)⟩
        | broken message => exact .inr ⟨t, .lose k handle d _ ht (.inr ⟨message, rfl⟩)⟩
      · rename_i handle d ht
        exact (hown.stages t _ ht).elim
      · exact .inl rfl
    | answerUnpublish t answer =>
      right; right; right
      show ({ l with publisher := l.publisher.answerUnpublish t answer } : LocalPublisher) = l ∨
        ∃ t', Answered t' l { l with publisher := l.publisher.answerUnpublish t answer }
      unfold answerUnpublish
      split
      · rename_i g ht
        cases answer with
        | ok u => exact hm.elim
        | error cause => exact .inr ⟨t, .keep g cause ht⟩
      · rename_i g ht
        exact (hown.stages t _ ht).elim
      · exact .inl rfl
    | reserve | drop | register | unregister | newHandle | handleFor => cases hm

/-- **A move comes to effects.** -/
theorem move_effects {m : LocalMove} (hm : l.Allows m) (hown : l.publisher.Owned) :
    ReflTransGen Effect l (l.move m) := by
  rcases move_cases hm hown with ⟨request, rfl, hr, hmade⟩ | ⟨t, rfl⟩ | ⟨t, rfl⟩ | he | ⟨t, ha⟩
  · exact .single (.ask request hr hmade)
  · exact effects_of_steps (abandon_steps l.publisher t)
  · exact effects_of_steps (run_steps l.publisher t)
  · rw [he]
  · exact .single (.answer t _ ha)

/-! ## What is stored -/

/-- **What holds at all times** of a publisher that has the registry in memory for itself. -/
structure Sane (l : LocalPublisher) : Prop where
  owned : l.publisher.Owned
  called : l.publisher.Called
  acquainted : l.publisher.Acquainted
  /-- The id of a registration is one that the registry has given. -/
  given : ∀ t g, l.publisher.stage? t = some (.ended (.registered g)) →
    ∃ n, n < l.memory.made ∧ g.id = MemoryRegistry.idOf n
  /-- No id is given to two of them. -/
  once : ∀ t t' g g', l.publisher.stage? t = some (.ended (.registered g)) →
    l.publisher.stage? t' = some (.ended (.registered g')) → g.id = g'.id → t = t'
  /-- The record has the name of the schema. -/
  name : ∀ g, l.publisher.Made g → g.record.name = g.schema
  /-- Only records of registrations that were made are stored. -/
  stored : ∀ s ∈ l.memory.stored, ∃ g, l.publisher.Made g ∧ s = g.stored
  nodup : l.memory.ids.Nodup

/-- Registrations that were made are told apart by their ids. -/
theorem Sane.eq_of_id (h : l.Sane) (hg : l.publisher.Made g) (hg' : l.publisher.Made g')
    (hid : g.id = g'.id) : g = g' := by
  obtain ⟨t, ht⟩ := hg
  obtain ⟨t', ht'⟩ := hg'
  obtain rfl := h.once t t' g g' ht ht' hid
  rw [ht] at ht'
  cases ht'
  rfl

theorem sane_fresh (base : Option String) (id : String) (listening : Bool) (limit : Option Nat) :
    (fresh base id listening limit).Sane where
  owned := owned_fresh id listening limit
  called := called_fresh id listening limit
  acquainted := acquainted_fresh id listening limit
  given t g ht := by simp [fresh, Publisher.fresh, stage?] at ht
  once t t' g g' ht := by simp [fresh, Publisher.fresh, stage?] at ht
  name g hg := by
    obtain ⟨t, ht⟩ := hg
    simp [fresh, Publisher.fresh, stage?] at ht
  stored s hs := by cases hs
  nodup := List.nodup_nil

/-- Where nothing is made and nothing is stored that was not before, the records stay in order. -/
theorem Sane.of_fewer (h : l.Sane) (howned : l'.publisher.Owned) (hcalled : l'.publisher.Called)
    (hacquainted : l'.publisher.Acquainted)
    (hold : ∀ t g, l'.publisher.stage? t = some (.ended (.registered g)) →
      l.publisher.stage? t = some (.ended (.registered g)))
    (hkeep : ∀ g, l.publisher.Made g → l'.publisher.Made g)
    (hmade : l'.memory.made = l.memory.made)
    (hstored : l'.memory.stored.Sublist l.memory.stored) : l'.Sane where
  owned := howned
  called := hcalled
  acquainted := hacquainted
  given t g ht := by
    rw [hmade]
    exact h.given t g (hold t g ht)
  once t t' g g' ht ht' := h.once t t' g g' (hold t g ht) (hold t' g' ht')
  name g hg := by
    obtain ⟨t, ht⟩ := hg
    exact h.name g ⟨t, hold t g ht⟩
  stored s hs := by
    obtain ⟨g, hg, rfl⟩ := h.stored s (hstored.subset hs)
    exact ⟨g, hkeep g hg, rfl⟩
  nodup := h.nodup.sublist (hstored.map _)

/-- A reply that is no record leaves the records in order. -/
theorem Sane.reply_fewer (h : l.Sane) (hs : Reply t l.publisher l'.publisher)
    (hno : ∀ k handle d, l.publisher.stage? t = some (.publishing k handle d) → ∃ o,
      l'.publisher.stage? t = some (.ended o) ∧ o.registration? = none)
    (hmade : l'.memory.made = l.memory.made)
    (hstored : l'.memory.stored.Sublist l.memory.stored) : l'.Sane := by
  refine h.of_fewer (h.owned.reply hs) (h.called.reply h.owned.sound hs)
    (h.acquainted.reply h.owned.sound hs) ?_ ?_ hmade hstored
  · intro u g hu
    rcases h.owned.sound.registered_reply hs hu with he | ⟨rfl, k, handle, d, record, ht, -⟩
    · exact he
    · obtain ⟨o, ho, hnone⟩ := hno k handle d ht
      rw [hu] at ho
      cases ho
      cases hnone
  · intro g
    exact (h.owned.sound.made_reply hs hno).2

section Commit
variable {k : Key} {handle : Handle} {d : Definition}

/-- The registration that a publish becomes. -/
def registered (l : LocalPublisher) (k : Key) (handle : Handle) (d : Definition) : Registration :=
  (l.publisher.registrar.register k (l.memory.recordFor handle d) handle l.publisher.listening).1

theorem reply_committed (ht : l.publisher.stage? t = some (.publishing k handle d)) :
    Reply t l.publisher (l.committed t k handle d).publisher :=
  .commit k handle d (l.memory.recordFor handle d) ht

/-- **What was made after a record was stored**: what was made before, and the registration of this
record. -/
theorem Sane.committed_cases (h : l.Sane)
    (ht : l.publisher.stage? t = some (.publishing k handle d)) (u : Nat) :
    (l.committed t k handle d).publisher.stage? u = some (.ended (.registered g)) ↔
      l.publisher.stage? u = some (.ended (.registered g)) ∨ u = t ∧ g = l.registered k handle d := by
  have hended : (l.committed t k handle d).publisher.stage? t =
      some (.ended (.registered (l.registered k handle d))) :=
    h.owned.sound.ended_finish (by simp) ht _
  constructor
  · intro hu
    rcases h.owned.sound.registered_reply (reply_committed ht) hu with he | ⟨rfl, -⟩
    · exact .inl he
    · rw [hended] at hu
      cases hu
      exact .inr ⟨rfl, rfl⟩
  · rintro (he | ⟨rfl, rfl⟩)
    · obtain ⟨s, hs, hl⟩ := (h.owned.sound.advances_reply (reply_committed ht) u).goes _ he
      rw [hs, hl.eq_of_ended]
    · exact hended

theorem Sane.made_committed (h : l.Sane)
    (ht : l.publisher.stage? t = some (.publishing k handle d)) :
    (l.committed t k handle d).publisher.Made g ↔
      l.publisher.Made g ∨ g = l.registered k handle d := by
  constructor
  · rintro ⟨u, hu⟩
    rcases (h.committed_cases ht u).1 hu with he | ⟨-, hg⟩
    · exact .inl ⟨u, he⟩
    · exact .inr hg
  · rintro (⟨u, hu⟩ | hg)
    · exact ⟨u, (h.committed_cases ht u).2 (.inl hu)⟩
    · exact ⟨t, (h.committed_cases ht t).2 (.inr ⟨rfl, hg⟩)⟩

/-- The id of a new record was not given before. -/
theorem Sane.id_ne_registered (h : l.Sane) (hg : l.publisher.Made g) (k : Key) (handle : Handle)
    (d : Definition) :
    g.id ≠ (l.registered k handle d).id := by
  obtain ⟨t, ht⟩ := hg
  obtain ⟨n, hn, hid⟩ := h.given t g ht
  intro he
  have hsame : MemoryRegistry.idOf n = MemoryRegistry.idOf l.memory.made := hid.symm.trans he
  have heq := MemoryRegistry.idOf_injective hsame
  omega

theorem Sane.committed (h : l.Sane) (ht : l.publisher.stage? t = some (.publishing k handle d)) :
    (l.committed t k handle d).Sane where
  owned := h.owned.reply (reply_committed ht)
  called := h.called.reply h.owned.sound (reply_committed ht)
  acquainted := h.acquainted.reply h.owned.sound (reply_committed ht)
  given u g hu := by
    show ∃ n, n < l.memory.made + 1 ∧ g.id = MemoryRegistry.idOf n
    rcases (h.committed_cases ht u).1 hu with he | ⟨-, rfl⟩
    · obtain ⟨n, hn, hid⟩ := h.given u g he
      exact ⟨n, by omega, hid⟩
    · exact ⟨l.memory.made, by omega, rfl⟩
  once u u' g g' hu hu' hid := by
    rcases (h.committed_cases ht u).1 hu with he | ⟨rfl, rfl⟩ <;>
      rcases (h.committed_cases ht u').1 hu' with he' | ⟨rfl, rfl⟩
    · exact h.once u u' g g' he he' hid
    · exact absurd hid (h.id_ne_registered ⟨u, he⟩ _ _ _)
    · exact absurd hid.symm (h.id_ne_registered ⟨u', he'⟩ _ _ _)
    · rfl
  name g hg := by
    rcases (h.made_committed ht).1 hg with hold | rfl
    · exact h.name g hold
    · exact (h.owned.sound.fits t _ ht).2.1
  stored s hs := by
    rcases List.mem_append.1 hs with hs | hs
    · obtain ⟨g, hg, rfl⟩ := h.stored s hs
      exact ⟨g, (h.made_committed ht).2 (.inl hg), rfl⟩
    · rw [List.mem_singleton.1 hs]
      exact ⟨l.registered k handle d, (h.made_committed ht).2 (.inr rfl), rfl⟩
  nodup := by
    show ((l.memory.stored ++ [(l.registered k handle d).stored]).map
      (·.record.registrationId)).Nodup
    rw [List.map_append, List.nodup_append]
    refine ⟨h.nodup, List.nodup_singleton _, ?_⟩
    intro id hid id' hid' he
    obtain ⟨s, hs, rfl⟩ := List.mem_map.1 hid
    obtain ⟨g, hg, rfl⟩ := h.stored s hs
    rw [List.map_singleton, List.mem_singleton] at hid'
    exact h.id_ne_registered hg k handle d (he.trans hid')

end Commit

/-- **Every effect leaves the records in order.** -/
theorem Sane.effect (h : l.Sane) (he : Effect l l') : l'.Sane := by
  cases he with
  | ask request hr hmade =>
    exact h.of_fewer (h.owned.ask hr) (h.called.ask request) (h.acquainted.ask hmade)
      (fun u g hu => ended_of_ask hu) (fun g => (made_ask request).2) rfl (List.Sublist.refl _)
  | step t q hs =>
    exact h.of_fewer (h.owned.step hs) (h.called.step h.owned hs) (h.acquainted.step h.owned hs)
      (fun u g hu => h.owned.sound.registered_step hs hu)
      (fun g => (h.owned.sound.made_step hs).2) rfl (List.Sublist.refl _)
  | answer t l' ha =>
    have hs := ha.reply
    cases ha with
    | commit k handle d ht => exact h.committed ht
    | lose k handle d outcome ht ho =>
      refine h.reply_fewer hs ?_ rfl (List.Sublist.refl _)
      intro k' handle' d' ht'
      refine ⟨outcome, h.owned.sound.ended_finish (by simp) ht _, ?_⟩
      rcases ho with ⟨_, rfl⟩ | ⟨_, rfl⟩ <;> rfl
    | remove g ht =>
      refine h.reply_fewer hs ?_ rfl List.filter_sublist
      intro k' handle' d' ht'
      rw [ht] at ht'
      cases ht'
    | keep g cause ht =>
      refine h.reply_fewer hs ?_ rfl (List.Sublist.refl _)
      intro k' handle' d' ht'
      rw [ht] at ht'
      cases ht'

theorem Sane.effects (h : l.Sane) (he : ReflTransGen Effect l l') : l'.Sane := by
  induction he with
  | refl => exact h
  | tail _ hstep ih => exact ih.effect hstep

theorem Sane.move {m : LocalMove} (h : l.Sane) (hm : l.Allows m) : (l.move m).Sane :=
  h.effects (move_effects hm h.owned)

end LocalPublisher
end SchemaHerald
