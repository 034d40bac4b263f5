import SchemaHerald.Proofs.BatchAccounting
import SchemaHerald.Proofs.CompleteTeardown
import SchemaHerald.Proofs.MadeRegistrations

/-!
# How registrations leave

A live registration leaves in one of two ways: the registry takes back a registration that is like it,
with the same key and the same id (`Takes`), or a teardown is complete and the registrar is released
(`Releases`). So a registration that was taken back cannot take a later one with it, unless the registry
gave both the same id; `departures_moves` says this for every run, and `successor_taken` shows what
happens if it did.

The listener of a registration that is live has not been told that it was taken back (`Unheard`), and so
is told when it is taken back itself.
-/
namespace SchemaHerald.Publisher

open Relation

variable {p q : Publisher} {t : Nat} {g g' : Registration} {ms : List Move} {m : Move}

/-! ## What may happen -/

/-- **What may happen next**: what a publisher's own callers do, who ask to unpublish only what it has
made. -/
def Allows (p : Publisher) : Move → Prop
  | .ask (.unpublish g) => p.Made g
  | m => m.isOwn = true

/-- All moves of a list may happen, one after the other. -/
def AllowsAll (p : Publisher) : List Move → Prop
  | [] => True
  | m :: ms => p.Allows m ∧ (p.move m).AllowsAll ms

theorem Allows.isOwn (h : p.Allows m) : m.isOwn = true := by
  unfold Allows at h
  split at h
  · rfl
  · exact h

theorem allowsAll_concat : p.AllowsAll (ms ++ [m]) ↔ p.AllowsAll ms ∧ (p.moves ms).Allows m := by
  induction ms generalizing p with
  | nil => simp [AllowsAll, moves]
  | cons m' ms ih =>
    rw [List.cons_append, AllowsAll, AllowsAll, ih, and_assoc]
    rfl

/-! ## Who was told -/

/-- **A live registration is unheard of**: nobody was told that it was taken back. -/
structure Unheard (p : Publisher) : Prop where
  live : ∀ k g, p.registrar.live? k = some g → g.serial ∉ p.withdrawn
  given : ∀ n ∈ p.withdrawn, n < p.registrar.made

/-- What was made is told apart by its number. -/
theorem Numbered.eq_of_serial (h : p.Numbered) (hg : p.Made g) (hg' : p.Made g')
    (hserial : g.serial = g'.serial) : g = g' := by
  obtain ⟨t, ht⟩ := hg
  obtain ⟨t', ht'⟩ := hg'
  have hsame : t = t' := h.inj t t' g g' ht ht' hserial
  subst hsame
  rw [ht] at ht'
  exact Outcome.registered.inj (Stage.ended.inj (Option.some.inj ht'))

theorem withdrawn_step (hs : Step t p q) : q.withdrawn = p.withdrawn := by
  cases hs <;> simp [beginUnpublish, withBatch, withRemoval]

/-- Only what is taken back is told of. -/
theorem withdrawn_withdraw (p : Publisher) (g : Registration) :
    (p.withdraw g).withdrawn =
      if g.serial ∈ p.withdrawn then p.withdrawn else g.serial :: p.withdrawn := by
  unfold withdraw
  by_cases h : g.serial ∈ p.withdrawn
  · simp [h]
  · simp only [h, List.contains_iff_mem, if_false]
    split <;> rfl

theorem Unheard.step (hunheard : p.Unheard) (h : p.Owned) (hs : Step t p q) : q.Unheard where
  live k g hg := by
    rw [withdrawn_step hs]
    rw [h.live?_step hs] at hg
    exact hunheard.live k g hg
  given n hn := by
    rw [withdrawn_step hs] at hn
    exact Nat.lt_of_lt_of_le (hunheard.given n hn) (h.sound.changes_step hs).made_le

/-- A reply that tells nobody keeps what is live unheard of. -/
theorem Unheard.of_untold (hunheard : p.Unheard) (hmade : p.registrar.made ≤ q.registrar.made)
    (htold : q.withdrawn = p.withdrawn)
    (hlive : ∀ k g, q.registrar.live? k = some g →
      p.registrar.live? k = some g ∨ g.serial = p.registrar.made) : q.Unheard where
  live k g hg := by
    rw [htold]
    rcases hlive k g hg with hold | hnew
    · exact hunheard.live k g hold
    · intro hmem
      have := hunheard.given _ hmem
      omega
  given n hn := by
    rw [htold] at hn
    exact Nat.lt_of_lt_of_le (hunheard.given n hn) hmade

/-- What is taken back is told of, and what is live still is something else. -/
theorem Unheard.removed (hunheard : p.Unheard) (h : p.Owned) (hnum : p.Numbered)
    (hknown : p.Acquainted) (ht : p.stage? t = some (.unpublishing g')) :
    (((p.withRegistrar (p.registrar.unregister g')).withdraw g').finish t .done).Unheard := by
  have hmade : p.Made g' := hknown.mentioned t _ g' ht rfl
  have hbelow : g'.serial < p.registrar.made := by
    obtain ⟨u, hu⟩ := hmade
    exact hnum.below u g' hu
  have hregistrar := (h.sound.changes_reply (.remove g' ht)).made_le
  have htold : (((p.withRegistrar (p.registrar.unregister g')).withdraw g').finish t .done).withdrawn =
      if g'.serial ∈ p.withdrawn then p.withdrawn else g'.serial :: p.withdrawn := by
    rw [withdrawn_finish, withdrawn_withdraw, withdrawn_withRegistrar]
  refine ⟨fun k g hg => ?_, fun n hn => ?_⟩
  · have hlive := h.sound.live?_of_finish ht (by simp) hg
    rw [registrar_withdraw, registrar_withRegistrar] at hlive
    obtain ⟨hold, hne⟩ := h.tidy.of_live?_unregister hlive
    have hserial : g.serial ≠ g'.serial := fun he =>
      hne (hnum.eq_of_serial (hknown.live k g hold) hmade he)
    have hunheard := hunheard.live k g hold
    rw [htold]
    split
    · exact hunheard
    · exact List.not_mem_cons_of_ne_of_not_mem hserial hunheard
  · refine Nat.lt_of_lt_of_le ?_ hregistrar
    rw [htold] at hn
    split at hn
    · exact hunheard.given n hn
    · rcases List.mem_cons.1 hn with rfl | hn
      · exact hbelow
      · exact hunheard.given n hn

theorem Unheard.reply (hunheard : p.Unheard) (h : p.Owned) (hnum : p.Numbered)
    (hknown : p.Acquainted) (hs : Reply t p q) : q.Unheard := by
  have hmade := (h.sound.changes_reply hs).made_le
  cases hs with
  | commit k' handle d record ht =>
    refine hunheard.of_untold hmade (by simp) fun k g hg => ?_
    have hlive := h.sound.live?_of_finish ht (by simp) hg
    rw [registrar_withRegistered, Registrar.live?_register] at hlive
    split at hlive
    · right
      cases hlive
      rfl
    · exact .inl hlive
  | lose k' handle d outcome ht ho =>
    refine hunheard.of_untold hmade (by simp) fun k g hg => .inl ?_
    have hlive := h.sound.live?_of_finish ht (by simp) hg
    rwa [registrar_wakeIdle, registrar_withRegistrar, Registrar.live?_abandon] at hlive
  | keep g' cause ht | tried s outcome ht hs ho =>
    exact hunheard.of_untold hmade (by simp) fun k g hg => .inl (h.sound.live?_of_finish ht rfl hg)
  | remove g' ht => exact hunheard.removed h hnum hknown ht

/-! ## At all times -/

/-- **What holds at all times** while a publisher's own callers unpublish only what it has made. -/
structure Steady (p : Publisher) : Prop where
  owned : p.Owned
  numbered : p.Numbered
  acquainted : p.Acquainted
  unheard : p.Unheard

theorem steady_fresh (id : String) (listening : Bool) (limit : Option Nat) :
    (fresh id listening limit).Steady where
  owned := owned_fresh id listening limit
  numbered := numbered_fresh id listening limit
  acquainted := acquainted_fresh id listening limit
  unheard := by
    refine ⟨fun k g hg => ?_, fun n hn => ?_⟩
    · simp [fresh, Registrar.live?] at hg
    · simp [fresh] at hn

theorem Steady.step (h : p.Steady) (hs : Step t p q) : q.Steady where
  owned := h.owned.step hs
  numbered := h.numbered.step h.owned.sound hs
  acquainted := h.acquainted.step h.owned hs
  unheard := h.unheard.step h.owned hs

theorem Steady.reply (h : p.Steady) (hs : Reply t p q) : q.Steady where
  owned := h.owned.reply hs
  numbered := h.numbered.reply h.owned.sound hs
  acquainted := h.acquainted.reply h.owned.sound hs
  unheard := h.unheard.reply h.owned h.numbered h.acquainted hs

/-- **A move** that may happen. -/
theorem Steady.move (h : p.Steady) (hm : p.Allows m) : (p.move m).Steady := by
  refine move_induction m (fun request he => ?_) (fun _ _ _ hs hq => hq.step hs)
    (fun _ _ hs => h.reply hs) (fun hd => ?_) h
  · subst he
    refine ⟨h.owned.ask hm.isOwn, h.numbered.mono le_rfl fun _ _ => ended_of_ask,
      h.acquainted.ask fun g he => ?_, h.unheard.live, h.unheard.given⟩
    subst he
    exact hm
  · rw [Move.not_isDirect_of_isOwn hm.isOwn] at hd
    cases hd

/-- **A run** of such moves. -/
theorem Steady.moves (h : p.Steady) (hms : p.AllowsAll ms) : (p.moves ms).Steady := by
  induction ms generalizing p with
  | nil => exact h
  | cons m ms ih => exact ih (h.move hms.1) hms.2

/-! ## Departures -/

/-- **The registry takes a registration back**: it answers well to an unpublish of it. -/
def Takes (p : Publisher) (m : Move) (g : Registration) : Prop :=
  ∃ t, m = .answerUnpublish t (.ok ()) ∧ p.stage? t = some (.unpublishing g)

/-- **The registrar is released** at the end of a teardown, and nothing is left. -/
def Releases (p q : Publisher) : Prop := Completes p q ∧ q.registrar.Bare

/-- **The listener of a registration is told** that it was taken back, if it has one. -/
def Tells (p q : Publisher) (g : Registration) : Prop :=
  q.withdrawn = g.serial :: p.withdrawn ∧
    q.journal = if g.listened then .unpublished g :: p.journal else p.journal

/-- **What the next move does to a registration** that is live. -/
structure Departs (p : Publisher) (m : Move) (g : Registration) : Prop where
  /-- It stays, or one like it is taken back, or the registrar is released. -/
  leaves : g ∈ (p.move m).registrar.registrations ∨
    (∃ g', Takes p m g' ∧ g'.key = g.key ∧ g'.id = g.id) ∨ Releases p (p.move m)
  /-- Whatever else is taken back does not take it away. -/
  spared : ∀ g', Takes p m g' → g'.key ≠ g.key ∨ g'.id ≠ g.id →
    g ∈ (p.move m).registrar.registrations ∨ Releases p (p.move m)
  /-- When it is taken back itself, it is live no more and its listener is told. -/
  told : Takes p m g → g ∉ (p.move m).registrar.registrations ∧ Tells p (p.move m) g
  /-- If the registry never gave its id to another registration under its key, it is taken away only
  by being taken back itself. -/
  only : (∀ g', p.Made g' → g'.key = g.key → g'.id = g.id → g' = g) →
    g ∈ (p.move m).registrar.registrations ∨ Takes p m g ∨ Releases p (p.move m)

theorem Takes.unique (h : Takes p m g) (h' : Takes p m g') : g = g' := by
  obtain ⟨t, rfl, ht⟩ := h
  obtain ⟨t', he, ht'⟩ := h'
  cases he
  rw [ht] at ht'
  exact Stage.unpublishing.inj (Option.some.inj ht')

/-- What a registration is taken back by. -/
theorem move_answerUnpublish_ok (ht : p.stage? t = some (.unpublishing g)) :
    p.move (.answerUnpublish t (.ok ())) =
      ((p.withRegistrar (p.registrar.unregister g)).withdraw g).finish t .done := by
  simp only [move, answerUnpublish, ht]

/-- **A teardown that is complete** leaves nothing. -/
theorem Owned.releases (h : p.Owned) (hs : Reply t p q) (hc : Completes p q) : Releases p q := by
  refine ⟨hc, ?_⟩
  obtain ⟨c, d, o, hdrain, hended⟩ := hc
  rcases h.kin.draining_reply h.sound hs hdrain with ⟨-, hstill⟩ | ⟨g, o', -, -, -, -, hstill | ⟨-, -, hbare⟩⟩
  · rw [hended] at hstill
    cases hstill
  · rw [hended] at hstill
    cases hstill
  · exact hbare

/-- **How a registration leaves.** -/
theorem Owned.leaves_move (h : p.Owned) (hm : m.isOwn = true)
    (hg : g ∈ p.registrar.registrations) :
    g ∈ (p.move m).registrar.registrations ∨
      (∃ g', Takes p m g' ∧ g'.key = g.key ∧ g'.id = g.id) ∨ Releases p (p.move m) := by
  obtain ⟨k, hk⟩ := Registrar.mem_registrations_iff.1 hg
  have stays : (p.move m).registrar.live? k = some g → g ∈ (p.move m).registrar.registrations :=
    fun hlive => Registrar.mem_registrations_iff.2 ⟨k, hlive⟩
  cases m with
  | ask request => exact .inl hg
  | abandon t => exact .inl (stays ((h.live?_steps (abandon_steps p t) k).trans hk))
  | run t => exact .inl (stays ((h.live?_steps (run_steps p t) k).trans hk))
  | answerPublish t answer =>
    rcases answerPublish_reply p t answer with he | hs
    · exact .inl (stays (by rw [Publisher.move, he, hk]))
    · rcases h.sound.live?_reply hs hk with hlive | ⟨g', ht, -⟩ | hcomplete
      · exact .inl (stays hlive)
      · -- a task that unpublishes is not told of a publish
        exact .inl (stays (by simp only [Publisher.move, answerPublish, ht, hk]))
      · exact .inr (.inr (h.releases hs hcomplete))
  | answerUnpublish t answer =>
    rcases answerUnpublish_reply p t answer with he | hs
    · exact .inl (stays (by rw [Publisher.move, he, hk]))
    · rcases h.sound.live?_reply hs hk with hlive | ⟨g', ht, hdone, -, halike⟩ | hcomplete
      · exact .inl (stays hlive)
      · cases answer with
        | ok _ =>
          simp only [Registration.alike, Bool.and_eq_true, beq_iff_eq] at halike
          exact .inr (.inl ⟨g', ⟨t, rfl, ht⟩, halike.1.symm, halike.2.symm⟩)
        | error cause =>
          -- a task whose unpublish failed is not done
          have hfailed : p.answerUnpublish t (.error cause) =
              p.finish t (.failed (.remote g'.registry g'.schema cause)) := by
            simp only [answerUnpublish, ht]
          rw [hfailed, h.sound.ended_finish rfl ht] at hdone
          cases hdone
      · exact .inr (.inr (h.releases hs hcomplete))
  | reserve | drop | register | unregister | newHandle | handleFor => cases hm

/-- **A registration that is taken back** is live no more, and its listener is told. -/
theorem Steady.told (h : p.Steady) (hg : g ∈ p.registrar.registrations) (htakes : Takes p m g) :
    g ∉ (p.move m).registrar.registrations ∧ Tells p (p.move m) g := by
  obtain ⟨t, rfl, ht⟩ := htakes
  obtain ⟨k, hk⟩ := Registrar.mem_registrations_iff.1 hg
  have hunheard : g.serial ∉ p.withdrawn := h.unheard.live k g hk
  rw [move_answerUnpublish_ok ht]
  refine ⟨fun hmem => ?_, ?_, ?_⟩
  · obtain ⟨k', hk'⟩ := Registrar.mem_registrations_iff.1 hmem
    have hlive := h.owned.sound.live?_of_finish ht (by simp) hk'
    rw [registrar_withdraw, registrar_withRegistrar] at hlive
    exact (h.owned.tidy.of_live?_unregister hlive).2 rfl
  · rw [withdrawn_finish, withdrawn_withdraw, withdrawn_withRegistrar, if_neg hunheard]
  · rw [journal_finish]
    unfold withdraw
    by_cases hl : g.listened <;> simp [hunheard, hl]

/-- **What the next move does to a registration**, at all times. -/
theorem Steady.departs (h : p.Steady) (hm : p.Allows m) (hg : g ∈ p.registrar.registrations) :
    Departs p m g := by
  have hleaves := h.owned.leaves_move hm.isOwn hg
  refine ⟨hleaves, fun g' htakes hother => ?_, h.told hg, fun honly => ?_⟩
  · rcases hleaves with hstays | ⟨g₁, htakes₁, hkey, hid⟩ | hreleases
    · exact .inl hstays
    · obtain rfl := htakes.unique htakes₁
      rcases hother with hne | hne
      · exact absurd hkey hne
      · exact absurd hid hne
    · exact .inr hreleases
  · rcases hleaves with hstays | ⟨g₁, htakes, hkey, hid⟩ | hreleases
    · exact .inl hstays
    · obtain ⟨t, -, ht⟩ := id htakes
      obtain rfl := honly g₁ (h.acquainted.mentioned t _ g₁ ht rfl) hkey hid
      exact .inr (.inl htakes)
    · exact .inr (.inr hreleases)

/-- **Departures.** Whenever a registration is live in a run of a publisher's own callers, and whatever
comes next, it leaves only when one with its key and its id is taken back or the registrar is
released. -/
theorem departures_moves (id : String) (listening : Bool) (limit : Option Nat)
    (hms : (fresh id listening limit).AllowsAll (ms ++ [m]))
    (hg : g ∈ ((fresh id listening limit).moves ms).registrar.registrations) :
    Departs ((fresh id listening limit).moves ms) m g := by
  obtain ⟨hpast, hm⟩ := allowsAll_concat.1 hms
  exact ((steady_fresh id listening limit).moves hpast).departs hm hg

/-- A registration of one schema that was given an id. -/
def givenId (serial : Nat) (id : String) : Registration where
  serial
  schema := "s"
  publisher := "id"
  record := ⟨id, "s", none, {}⟩
  handle := ⟨0, { name := "r" }⟩
  listened := true

/-- A schema is published with the id `1`, unpublished twice at once, and published again with some id
between the two answers. -/
def republished (id : String) : List Move :=
  [.ask (.publish { name := "r" } { schema := ⟨"s", "{}"⟩ }), .run 0,
    .answerPublish 0 (.record ⟨"1", "s", none, {}⟩), .ask (.unpublish (givenId 1 "1")), .run 1,
    .ask (.unpublish (givenId 1 "1")), .run 2, .answerUnpublish 1 (.ok ()),
    .ask (.publish { name := "r" } { schema := ⟨"s", "{}"⟩ }), .run 3,
    .answerPublish 3 (.record ⟨id, "s", none, {}⟩)]

theorem allowsAll_republished (id : String) :
    (fresh "id" true none).AllowsAll (republished id ++ [.answerUnpublish 2 (.ok ())]) :=
  ⟨rfl, rfl, rfl, ⟨0, rfl⟩, rfl, ⟨0, rfl⟩, rfl, rfl, rfl, rfl, rfl, rfl, trivial⟩

/-- With another id the second registration is spared when the first one is taken back again. -/
theorem departures_moves_republished :
    givenId 2 "2" ∈ ((fresh "id" true none).moves (republished "2")).registrar.registrations ∧
      Departs ((fresh "id" true none).moves (republished "2")) (.answerUnpublish 2 (.ok ()))
        (givenId 2 "2") := by
  have hlive : givenId 2 "2" ∈
      ((fresh "id" true none).moves (republished "2")).registrar.registrations :=
    Registrar.mem_registrations_iff.2 ⟨⟨"r", "s"⟩, by rfl⟩
  exact ⟨hlive, departures_moves "id" true none (allowsAll_republished "2") hlive⟩

/-- The serial numbers of what is live after a list of moves. -/
def liveAfter (ms : List Move) : List Nat :=
  ((fresh "id" true none).moves ms).registrar.registrations.map (·.serial)

/-- **A successor is taken.** When the registry gives the same id again, the second registration is
live until the first one, of which nothing is live any more, is taken back again; its own listener is
not told. -/
theorem successor_taken :
    liveAfter ((republished "1").take 3) = [1] ∧ liveAfter ((republished "1").take 8) = [] ∧
      givenId 2 "1" ∈ ((fresh "id" true none).moves (republished "1")).registrar.registrations ∧
      ((fresh "id" true none).moves (republished "1")).stage? 2 =
        some (.unpublishing (givenId 1 "1")) ∧
      liveAfter (republished "1" ++ [.answerUnpublish 2 (.ok ())]) = [] ∧
      ((fresh "id" true none).moves
        (republished "1" ++ [.answerUnpublish 2 (.ok ())])).withdrawn = [1] ∧
      ((fresh "id" true none).moves
        (republished "1" ++ [.answerUnpublish 2 (.ok ())])).registrar.closed = false := by
  refine ⟨by decide +kernel, by decide +kernel, ?_, by rfl, by decide +kernel, by decide +kernel,
    by decide +kernel⟩
  exact Registrar.mem_registrations_iff.2 ⟨⟨"r", "s"⟩, by rfl⟩

end SchemaHerald.Publisher
