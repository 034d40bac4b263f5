import SchemaHerald.Proofs.Departures
import SchemaHerald.Proofs.Exclusion

/-!
# What a listener is told

A move lets the listener of a publisher hear at most one thing (`Hears`): that a registration is live,
in the move that makes it so, or that it was taken back, in the first move in which the registry
answers well to an unpublish of it. Calls that fail and releases are silent. Along a run this says what
the journal holds (`Heard`): each registration that was made is announced once, it is recalled at most
once, and announced before. `listenerEvents_moves` is the whole of it.
-/
namespace SchemaHerald

namespace Entry

/-- The registration that the listener is told is live. -/
def published? : Entry → Option Registration
  | .published g => some g
  | _ => none

/-- The registration that the listener is told was taken back. -/
def unpublished? : Entry → Option Registration
  | .unpublished g => some g
  | _ => none

/-- The registry is called; the listener is told nothing. -/
def IsCall : Entry → Prop
  | .publishCall .. | .unpublishCall .. => True
  | .published _ | .unpublished _ => False

theorem IsCall.published? {e : Entry} (h : e.IsCall) : e.published? = none := by
  cases e <;> first | rfl | exact h.elim

theorem IsCall.unpublished? {e : Entry} (h : e.IsCall) : e.unpublished? = none := by
  cases e <;> first | rfl | exact h.elim

end Entry

namespace Publisher

open Relation

variable {p q : Publisher} {t : Nat} {g : Registration} {ms : List Move} {m : Move}
  {took took' : Registration → Prop}

/-- **The registrations that were announced** as live, the last one first. -/
def announced (p : Publisher) : List Registration := p.journal.filterMap Entry.published?

/-- **The registrations that were recalled** as taken back, the last one first. -/
def recalled (p : Publisher) : List Registration := p.journal.filterMap Entry.unpublished?

theorem mem_announced_iff : g ∈ p.announced ↔ .published g ∈ p.journal := by
  simp only [announced, List.mem_filterMap]
  constructor
  · rintro ⟨e, he, hg⟩
    cases e <;> cases hg
    exact he
  · exact fun h => ⟨_, h, rfl⟩

theorem mem_recalled_iff : g ∈ p.recalled ↔ .unpublished g ∈ p.journal := by
  simp only [recalled, List.mem_filterMap]
  constructor
  · rintro ⟨e, he, hg⟩
    cases e <;> cases hg
    exact he
  · exact fun h => ⟨_, h, rfl⟩

theorem announced_of_calls {new : List Entry} (hq : q.journal = new ++ p.journal)
    (hcalls : ∀ e ∈ new, e.IsCall) : q.announced = p.announced := by
  have hnone : new.filterMap Entry.published? = [] :=
    List.filterMap_eq_nil_iff.2 fun e he => (hcalls e he).published?
  rw [announced, hq, List.filterMap_append, hnone, List.nil_append]
  rfl

theorem recalled_of_calls {new : List Entry} (hq : q.journal = new ++ p.journal)
    (hcalls : ∀ e ∈ new, e.IsCall) : q.recalled = p.recalled := by
  have hnone : new.filterMap Entry.unpublished? = [] :=
    List.filterMap_eq_nil_iff.2 fun e he => (hcalls e he).unpublished?
  rw [recalled, hq, List.filterMap_append, hnone, List.nil_append]
  rfl

/-! ## Publishers with a listener -/

/-- A publisher has a listener for all time. -/
theorem listening_move (hm : m.isOwn = true) : (p.move m).listening = p.listening := by
  refine move_induction (P := fun q => q.listening = p.listening) m (fun _ _ => rfl) ?_ ?_ ?_ rfl
  · intro t q q' hs hq
    rw [← hq]
    cases hs <;> simp [beginUnpublish, withBatch, withRemoval]
  · intro t q hs
    cases hs <;> simp
  · intro hd
    rw [Move.not_isDirect_of_isOwn hm] at hd
    cases hd

/-- **A publisher with a listener**, who is told of every registration that it makes. -/
structure Listens (p : Publisher) : Prop where
  listening : p.listening = true
  made : ∀ g, p.Made g → g.listened = true

/-! ## What is heard of a move -/

/-- **What is heard of a change** by which the registrations of `took` were taken back. -/
inductive Hears (took : Registration → Prop) (p q : Publisher) : Prop
  /-- Nothing: no registration is made, and what is taken back had been recalled before. -/
  | silence (hmade : ∀ g, q.Made g ↔ p.Made g)
      (hlive : ∀ g ∈ q.registrar.registrations, g ∈ p.registrar.registrations)
      (hnew : ∃ new, q.journal = new ++ p.journal ∧ ∀ e ∈ new, e.IsCall)
      (htold : q.withdrawn = p.withdrawn) (htook : ∀ g, took g → g.serial ∈ p.withdrawn)
  /-- A registration is made, which is live. -/
  | publish (g : Registration) (hnot : ¬ p.Made g) (hmade : ∀ g', q.Made g' ↔ g' = g ∨ p.Made g')
      (hlive : ∀ g' ∈ q.registrar.registrations, g' = g ∨ g' ∈ p.registrar.registrations)
      (hg : g ∈ q.registrar.registrations) (hlistened : g.listened = true)
      (hnew : q.journal = .published g :: p.journal) (htold : q.withdrawn = p.withdrawn)
      (htook : ∀ g, ¬ took g)
  /-- A registration is taken back that had not been recalled. -/
  | unpublish (g : Registration) (htook : ∀ g', took g' ↔ g' = g) (hnot : g.serial ∉ p.withdrawn)
      (hmade : ∀ g, q.Made g ↔ p.Made g)
      (hlive : ∀ g ∈ q.registrar.registrations, g ∈ p.registrar.registrations)
      (hnew : q.journal = .unpublished g :: p.journal) (htold : q.withdrawn = g.serial :: p.withdrawn)

theorem Hears.congr (h : Hears took p q) (hiff : ∀ g, took' g ↔ took g) : Hears took' p q := by
  have he : took' = took := funext fun g => propext (hiff g)
  rw [he]
  exact h

/-- What a task does by itself is silent. -/
theorem Steady.hears_steps (h : p.Steady) (hs : ReflTransGen (Step t) p q) :
    Hears (fun _ => False) p q := by
  have hall : (∀ g, q.Made g ↔ p.Made g) ∧ q.withdrawn = p.withdrawn ∧
      ∃ new, q.journal = new ++ p.journal ∧ ∀ e ∈ new, e.IsCall := by
    induction hs with
    | refl => exact ⟨fun _ => Iff.rfl, rfl, [], rfl, by simp⟩
    | tail hsteps hstep ih =>
      obtain ⟨hmade, htold, new, hnew, hcalls⟩ := ih
      have hsound := h.owned.sound.steps hsteps
      refine ⟨fun g => (hsound.made_step hstep).trans (hmade g),
        (withdrawn_step hstep).trans htold, ?_⟩
      rcases journal_step hstep with he | ⟨_, _, he⟩ | ⟨_, he, -⟩ | ⟨_, _, _, he, -⟩
      · exact ⟨new, he.trans hnew, hcalls⟩
      all_goals
        refine ⟨_ :: new, by rw [he, hnew]; rfl, fun e he => ?_⟩
        rcases List.mem_cons.1 he with rfl | he
        · trivial
        · exact hcalls e he
  obtain ⟨hmade, htold, hnew⟩ := hall
  refine .silence hmade (fun g hg => ?_) hnew htold fun g hg => hg.elim
  obtain ⟨k, hk⟩ := Registrar.mem_registrations_iff.1 hg
  rw [h.owned.live?_steps hs k] at hk
  exact Registrar.mem_registrations_iff.2 ⟨k, hk⟩

/-- The task was to unpublish a registration, and is done. -/
def Took (t : Nat) (p q : Publisher) (g : Registration) : Prop :=
  p.stage? t = some (.unpublishing g) ∧ q.outcome? t = some .done

/-- **The end of a task is silent** that makes no registration, if nothing was told before it and
nothing came to be live. -/
theorem Sound.silent_finish {p' : Publisher} {s : Stage} {o : Outcome} (h : p.Sound)
    (ht : p.stage? t = some s) (hs : Reply t p (p'.finish t o)) (ho : o.registration? = none)
    (htasks : p'.tasks = p.tasks) (hjournal : p'.journal = p.journal)
    (htold : p'.withdrawn = p.withdrawn)
    (hlive : ∀ k g, p'.registrar.live? k = some g → p.registrar.live? k = some g)
    (htook : ∀ g, Took t p (p'.finish t o) g → g.serial ∈ p.withdrawn) :
    Hears (Took t p (p'.finish t o)) p (p'.finish t o) := by
  refine .silence (fun g => ?_) (fun g hg => ?_) ⟨[], ?_, by simp⟩ ?_ htook
  · exact h.made_reply hs fun _ _ _ _ => ⟨o, h.ended_finish htasks ht o, ho⟩
  · obtain ⟨k, hk⟩ := Registrar.mem_registrations_iff.1 hg
    exact Registrar.mem_registrations_iff.2 ⟨k, hlive k g (h.live?_of_finish ht htasks hk)⟩
  · rw [journal_finish, hjournal, List.nil_append]
  · rw [withdrawn_finish, htold]

/-- A publish that becomes a registration is heard of at once. -/
theorem Steady.hears_commit {k : Key} {handle : Handle} {d : Definition} (h : p.Steady)
    (hl : p.Listens) (ht : p.stage? t = some (.publishing k handle d)) (record : Record)
    (hq : q = (p.withRegistered k record handle).finish t
      (.registered (p.registrar.register k record handle p.listening).1)) :
    Hears (Took t p q) p q := by
  have hs : Reply t p q := hq ▸ .commit k handle d record ht
  generalize hg : (p.registrar.register k record handle p.listening).1 = g at hq
  have hsound := h.owned.sound
  have hended : q.stage? t = some (.ended (.registered g)) := by
    rw [hq]
    exact hsound.ended_finish (by simp) ht _
  have hregistrar : q.registrar = (p.registrar.register k record handle p.listening).2 := by
    rw [hq, hsound.registrar_finish_publishing ht (by simp), registrar_withRegistered]
  have hlive : ∀ k', q.registrar.live? k' = if k' = k then some g else p.registrar.live? k' := by
    intro k'
    rw [hregistrar, Registrar.live?_register, hg]
  have hlistened : g.listened = true := by
    rw [← hg]
    exact hl.listening
  refine .publish g (fun hmade => ?_) (fun g' => ⟨fun hmade => ?_, ?_⟩) (fun g' hg' => ?_)
    (Registrar.mem_registrations_iff.2 ⟨k, by rw [hlive, if_pos rfl]⟩) hlistened ?_ ?_
    fun g' htook => ?_
  · -- what was made before has a lower number
    obtain ⟨u, hu⟩ := hmade
    have hlt := h.numbered.below u g hu
    rw [← hg] at hlt
    exact Nat.lt_irrefl _ hlt
  · obtain ⟨u, hu⟩ := hmade
    rcases hsound.registered_reply hs hu with he | ⟨rfl, -⟩
    · exact .inr ⟨u, he⟩
    · rw [hended] at hu
      cases hu
      exact .inl rfl
  · rintro (rfl | hmade)
    · exact ⟨t, hended⟩
    · exact hmade.mono fun u => (hsound.advances_reply hs u).goes
  · obtain ⟨k', hk'⟩ := Registrar.mem_registrations_iff.1 hg'
    rw [hlive] at hk'
    split at hk'
    · cases hk'
      exact .inl rfl
    · exact .inr (Registrar.mem_registrations_iff.2 ⟨k', hk'⟩)
  · rw [hq, journal_finish]
    unfold withRegistered
    dsimp only
    rw [hg, if_pos hlistened, journal_see, journal_wakeIdle, journal_withRegistrar]
  · rw [hq, withdrawn_finish, withdrawn_withRegistered]
  · cases ht.symm.trans htook.1

/-- An unpublish that is done is heard of unless it was before. -/
theorem Steady.hears_remove (h : p.Steady) (hl : p.Listens)
    (ht : p.stage? t = some (.unpublishing g))
    (hq : q = ((p.withRegistrar (p.registrar.unregister g)).withdraw g).finish t .done) :
    Hears (Took t p q) p q := by
  have hs : Reply t p q := hq ▸ .remove g ht
  have hsound := h.owned.sound
  have hlistened : g.listened = true := hl.made g (h.acquainted.mentioned t _ g ht rfl)
  have hlive : ∀ k g', (p.registrar.unregister g).live? k = some g' →
      p.registrar.live? k = some g' := fun k g' hg' => (h.owned.tidy.of_live?_unregister hg').1
  have htook : ∀ g', Took t p q g' ↔ g' = g := by
    intro g'
    constructor
    · rintro ⟨ht', -⟩
      cases ht.symm.trans ht'
      rfl
    · rintro rfl
      refine ⟨ht, ?_⟩
      rw [hq, outcome?_eq_some_iff]
      exact hsound.ended_finish (by simp) ht _
  by_cases htold : g.serial ∈ p.withdrawn
  · have hsame : (p.withRegistrar (p.registrar.unregister g)).withdraw g =
        p.withRegistrar (p.registrar.unregister g) := by
      unfold withdraw
      exact if_pos (List.contains_iff_mem.2 htold)
    rw [hsame] at hq
    subst hq
    refine hsound.silent_finish ht hs rfl rfl rfl rfl hlive fun g' hg' => ?_
    rw [(htook g').1 hg']
    exact htold
  · refine .unpublish g htook htold (fun g' => ?_) (fun g' hg' => ?_) ?_ ?_
    · refine hsound.made_reply hs fun k handle d ht' => ?_
      cases ht.symm.trans ht'
    · obtain ⟨k, hk⟩ := Registrar.mem_registrations_iff.1 hg'
      rw [hq] at hk
      have hk := hsound.live?_of_finish ht (by simp) hk
      rw [registrar_withdraw] at hk
      exact Registrar.mem_registrations_iff.2 ⟨k, hlive k g' hk⟩
    · rw [hq, journal_finish]
      unfold withdraw
      simp [htold, hlistened]
    · rw [hq, withdrawn_finish, withdrawn_withdraw, withdrawn_withRegistrar, if_neg htold]

/-- **What is heard of a reply.** -/
theorem Steady.hears_reply (h : p.Steady) (hl : p.Listens) (hs : Reply t p q) :
    Hears (Took t p q) p q := by
  have hsound := h.owned.sound
  cases id hs with
  | commit k handle d record ht => exact h.hears_commit hl ht record rfl
  | remove g ht => exact h.hears_remove hl ht rfl
  | lose k handle d outcome ht ho =>
    refine hsound.silent_finish ht hs ?_ (by simp) (by simp) (by simp) (fun k' g hg => ?_) ?_
    · rcases ho with ⟨_, rfl⟩ | ⟨_, rfl⟩ <;> rfl
    · rwa [registrar_wakeIdle, registrar_withRegistrar, Registrar.live?_abandon] at hg
    · rintro g ⟨ht', -⟩
      cases ht.symm.trans ht'
  | keep g' cause ht =>
    refine hsound.silent_finish ht hs rfl rfl rfl rfl (fun _ _ hg => hg) ?_
    rintro g ⟨-, hdone⟩
    rw [outcome?_eq_some_iff, hsound.ended_finish rfl ht] at hdone
    cases hdone
  | tried s outcome ht hstage ho =>
    refine hsound.silent_finish ht hs ho rfl rfl rfl (fun _ _ hg => hg) ?_
    rintro g ⟨ht', -⟩
    rcases hstage with ⟨_, _, rfl⟩ | ⟨_, rfl⟩ <;> cases ht.symm.trans ht'

/-- The registry takes a registration back when its answer ends the task that was to unpublish it. -/
theorem Sound.takes_iff (h : p.Sound) {answer : Except Cause Unit} :
    Takes p (.answerUnpublish t answer) g ↔ Took t p (p.move (.answerUnpublish t answer)) g := by
  constructor
  · rintro ⟨t', he, ht⟩
    cases he
    refine ⟨ht, ?_⟩
    rw [move_answerUnpublish_ok ht, outcome?_eq_some_iff]
    exact h.ended_finish (by simp) ht _
  · rintro ⟨ht, hdone⟩
    cases answer with
    | ok _ => exact ⟨t, rfl, ht⟩
    | error cause =>
      have hfailed : p.move (.answerUnpublish t (.error cause)) =
          p.finish t (.failed (.remote g.registry g.schema cause)) := by
        simp only [Publisher.move, answerUnpublish, ht]
      rw [hfailed, outcome?_eq_some_iff, h.ended_finish rfl ht] at hdone
      cases hdone

/-- Who was to unpublish and has not gone on has not taken anything back. -/
theorem not_took (ht : q.stage? t = p.stage? t) : ¬ Took t p q g := by
  rintro ⟨hu, hdone⟩
  rw [outcome?_eq_some_iff, ht, hu] at hdone
  cases hdone

theorem hears_nothing (htook : ∀ g, ¬ took g) : Hears took p p :=
  .silence (fun _ => Iff.rfl) (fun _ hg => hg) ⟨[], rfl, by simp⟩ rfl fun g hg => absurd hg (htook g)

/-- **What is heard of a move** that may happen. -/
theorem Steady.hears_move (h : p.Steady) (hl : p.Listens) (hm : p.Allows m) :
    Hears (Takes p m) p (p.move m) := by
  have never : (∀ t answer, m ≠ .answerUnpublish t answer) → ∀ g, Takes p m g ↔ False := by
    intro hne g
    refine iff_of_false ?_ id
    rintro ⟨t, rfl, -⟩
    exact hne t _ rfl
  cases m with
  | ask request =>
    refine .silence (fun g => made_ask request) (fun g hg => hg) ⟨[], rfl, by simp⟩ rfl
      fun g hg => ?_
    exact ((never (by simp) g).1 hg).elim
  | abandon t => exact (h.hears_steps (abandon_steps p t)).congr (never (by simp))
  | run t => exact (h.hears_steps (run_steps p t)).congr (never (by simp))
  | answerPublish t answer =>
    rcases answerPublish_reply p t answer with he | hs
    · rw [Publisher.move, he]
      exact hears_nothing fun g hg => (never (by simp) g).1 hg
    · refine (h.hears_reply hl hs).congr fun g => (never (by simp) g).trans ?_
      refine iff_of_false id fun htook => ?_
      -- a task that unpublishes is not told of a publish
      have hsame : p.answerPublish t answer = p := by simp only [answerPublish, htook.1]
      exact not_took (congrArg (·.stage? t) hsame) htook
  | answerUnpublish t answer =>
    rcases answerUnpublish_reply p t answer with he | hs
    · rw [Publisher.move, he]
      refine hears_nothing fun g hg => ?_
      have htook := h.owned.sound.takes_iff.1 hg
      exact not_took (congrArg (·.stage? t) he) htook
    · exact (h.hears_reply hl hs).congr fun g => h.owned.sound.takes_iff
  | reserve | drop | register | unregister | newHandle | handleFor => cases hm.isOwn

/-! ## Along a run -/

/-- Whatever is said to be taken back was said to be live before. -/
def InOrder (es : List Entry) : Prop :=
  ∀ later g earlier, es = later ++ .unpublished g :: earlier → .published g ∈ earlier

theorem InOrder.cons {e : Entry} {es : List Entry} (h : InOrder es)
    (he : ∀ g, e = .unpublished g → .published g ∈ es) : InOrder (e :: es) := by
  intro later g earlier hsplit
  cases later with
  | nil =>
    cases hsplit
    exact he g rfl
  | cons e' later =>
    cases hsplit
    exact h later g earlier rfl

theorem InOrder.append_calls {new es : List Entry} (h : InOrder es)
    (hcalls : ∀ e ∈ new, e.IsCall) : InOrder (new ++ es) := by
  induction new with
  | nil => exact h
  | cons e new ih =>
    refine (ih fun e' he' => hcalls e' (List.mem_cons_of_mem _ he')).cons ?_
    rintro g rfl
    exact (hcalls _ List.mem_cons_self).elim

/-- **What the journal holds**: every registration that was made is announced, once; those that are
recalled are the ones that were withdrawn, each once, and were announced before. -/
structure Heard (p : Publisher) : Prop where
  announced : ∀ g, g ∈ p.announced ↔ p.Made g
  announcedOnce : (p.announced.map (·.serial)).Nodup
  recalled : p.recalled.map (·.serial) = p.withdrawn
  recalledOnce : p.withdrawn.Nodup
  made : ∀ g ∈ p.recalled, p.Made g
  inOrder : InOrder p.journal

/-- What was made was recalled if its number was withdrawn. -/
theorem Heard.mem_recalled_iff (h : p.Heard) (hnum : p.Numbered) (hg : p.Made g) :
    g ∈ p.recalled ↔ g.serial ∈ p.withdrawn := by
  rw [← h.recalled]
  constructor
  · exact List.mem_map_of_mem
  · intro hmem
    obtain ⟨g', hg', hserial⟩ := List.mem_map.1 hmem
    exact hnum.eq_of_serial (h.made g' hg') hg hserial ▸ hg'

theorem Heard.hears (h : p.Heard) (hnum : q.Numbered) (hears : Hears took p q)
    (hknown : ∀ g, took g → p.Made g) : q.Heard := by
  cases hears with
  | silence hmade hlive hnew htold htook =>
    obtain ⟨new, hnew, hcalls⟩ := hnew
    have hannounced := announced_of_calls hnew hcalls
    have hrecalled := recalled_of_calls hnew hcalls
    refine ⟨fun g => ?_, ?_, ?_, ?_, fun g hg => ?_, ?_⟩
    · rw [hannounced, h.announced, hmade]
    · rw [hannounced]
      exact h.announcedOnce
    · rw [hrecalled, htold, h.recalled]
    · rw [htold]
      exact h.recalledOnce
    · rw [hrecalled] at hg
      exact (hmade g).2 (h.made g hg)
    · rw [hnew]
      exact h.inOrder.append_calls hcalls
  | publish g hnot hmade hlive hg hlistened hnew htold htook =>
    have hannounced : q.announced = g :: p.announced := by
      rw [Publisher.announced, hnew]
      rfl
    have hrecalled : q.recalled = p.recalled := by
      rw [Publisher.recalled, hnew]
      rfl
    have hg' : q.Made g := (hmade g).2 (.inl rfl)
    refine ⟨fun g' => ?_, ?_, ?_, ?_, fun g' hg' => ?_, ?_⟩
    · rw [hannounced, List.mem_cons, h.announced, hmade]
    · rw [hannounced, List.map_cons, List.nodup_cons]
      refine ⟨fun hmem => ?_, h.announcedOnce⟩
      obtain ⟨g₀, hg₀, hserial⟩ := List.mem_map.1 hmem
      have hmade₀ := (h.announced g₀).1 hg₀
      obtain rfl := hnum.eq_of_serial ((hmade g₀).2 (.inr hmade₀)) hg' hserial
      exact hnot hmade₀
    · rw [hrecalled, htold, h.recalled]
    · rw [htold]
      exact h.recalledOnce
    · rw [hrecalled] at hg'
      exact (hmade g').2 (.inr (h.made g' hg'))
    · rw [hnew]
      refine h.inOrder.cons ?_
      rintro g' he
      cases he
  | unpublish g htook hnot hmade hlive hnew htold =>
    have hannounced : q.announced = p.announced := by
      rw [Publisher.announced, hnew]
      rfl
    have hrecalled : q.recalled = g :: p.recalled := by
      rw [Publisher.recalled, hnew]
      rfl
    have hg : p.Made g := hknown g ((htook g).2 rfl)
    refine ⟨fun g' => ?_, ?_, ?_, ?_, fun g' hg' => ?_, ?_⟩
    · rw [hannounced, h.announced, hmade]
    · rw [hannounced]
      exact h.announcedOnce
    · rw [hrecalled, htold, List.map_cons, h.recalled]
    · rw [htold]
      exact List.nodup_cons.2 ⟨hnot, h.recalledOnce⟩
    · rw [hrecalled] at hg'
      refine (hmade g').2 ?_
      rcases List.mem_cons.1 hg' with rfl | hg'
      · exact hg
      · exact h.made g' hg'
    · rw [hnew]
      refine h.inOrder.cons ?_
      rintro g' he
      cases he
      exact mem_announced_iff.1 ((h.announced g).2 hg)

/-- A move keeps a listener told of everything that is made. -/
theorem Listens.hears (hl : p.Listens) (hlistening : q.listening = p.listening)
    (hears : Hears took p q) : q.Listens := by
  refine ⟨hlistening.trans hl.listening, fun g hg => ?_⟩
  cases hears with
  | silence hmade => exact hl.made g ((hmade g).1 hg)
  | unpublish g' htook hnot hmade => exact hl.made g ((hmade g).1 hg)
  | publish g' hnot hmade hlive hg' hlistened =>
    rcases (hmade g).1 hg with rfl | hg
    · exact hlistened
    · exact hl.made g hg

/-- What the registry takes back was made. -/
theorem Steady.made_of_takes (h : p.Steady) (htakes : Takes p m g) : p.Made g := by
  obtain ⟨t, -, ht⟩ := htakes
  exact h.acquainted.mentioned t _ g ht rfl

/-- **A publisher whose listener hears everything.** -/
structure Attended (p : Publisher) : Prop where
  steady : p.Steady
  listens : p.Listens
  heard : p.Heard

theorem attended_fresh (id : String) (limit : Option Nat) : (fresh id true limit).Attended where
  steady := steady_fresh id true limit
  listens := by
    refine ⟨rfl, ?_⟩
    rintro g ⟨t, ht⟩
    simp [fresh, stage?] at ht
  heard := by
    refine ⟨fun g => ?_, List.nodup_nil, rfl, List.nodup_nil, fun g hg => ?_, fun later g earlier h => ?_⟩
    · refine iff_of_false (by simp [announced, fresh]) ?_
      rintro ⟨t, ht⟩
      simp [fresh, stage?] at ht
    · cases hg
    · simp [fresh] at h

theorem Attended.move (h : p.Attended) (hm : p.Allows m) : (p.move m).Attended := by
  have hears := h.steady.hears_move h.listens hm
  have hsteady := h.steady.move hm
  exact ⟨hsteady, h.listens.hears (listening_move hm.isOwn) hears,
    h.heard.hears hsteady.numbered hears fun _ => h.steady.made_of_takes⟩

theorem Attended.moves (h : p.Attended) (hms : p.AllowsAll ms) : (p.moves ms).Attended := by
  induction ms generalizing p with
  | nil => exact h
  | cons m ms ih => exact ih (h.move hms.1) hms.2

/-- A move recalls what it takes back, unless that was recalled before. -/
theorem Attended.mem_recalled_move (h : p.Attended) (hm : p.Allows m) :
    g ∈ (p.move m).recalled ↔ g ∈ p.recalled ∨ Takes p m g := by
  cases h.steady.hears_move h.listens hm with
  | silence hmade hlive hnew htold htook =>
    obtain ⟨new, hnew, hcalls⟩ := hnew
    rw [recalled_of_calls hnew hcalls]
    refine ⟨.inl, fun hcases => hcases.elim id fun htakes => ?_⟩
    exact (h.heard.mem_recalled_iff h.steady.numbered (h.steady.made_of_takes htakes)).2
      (htook g htakes)
  | publish g' hnot hmade hlive hg hlistened hnew htold htook =>
    have hrecalled : (p.move m).recalled = p.recalled := by
      rw [recalled, hnew]
      rfl
    rw [hrecalled]
    exact ⟨.inl, fun hcases => hcases.elim id fun htakes => absurd htakes (htook g)⟩
  | unpublish g' htook hnot hmade hlive hnew htold =>
    have hrecalled : (p.move m).recalled = g' :: p.recalled := by
      rw [recalled, hnew]
      rfl
    rw [hrecalled, List.mem_cons, htook, or_comm]

/-- **Exactly what was taken back is recalled.** -/
theorem Attended.mem_recalled_iff (h : p.Attended) (hms : p.AllowsAll ms) (hnew : p.recalled = []) :
    g ∈ (p.moves ms).recalled ↔ ∃ i m, ms[i]? = some m ∧ Takes (p.moves (ms.take i)) m g := by
  induction ms using List.reverseRecOn with
  | nil =>
    rw [show (p.moves []).recalled = [] from hnew]
    simp
  | append_singleton ms m ih =>
    obtain ⟨hpast, hm⟩ := allowsAll_concat.1 hms
    rw [moves_concat, (h.moves hpast).mem_recalled_move hm, ih hpast]
    constructor
    · rintro (⟨i, m', hm', htakes⟩ | htakes)
      · have hlt : i < ms.length := (List.getElem?_eq_some_iff.1 hm').1
        refine ⟨i, m', by rw [List.getElem?_append_left hlt, hm'], ?_⟩
        rwa [List.take_append_of_le_length hlt.le]
      · exact ⟨ms.length, m, by simp, by simpa using htakes⟩
    · rintro ⟨i, m', hm', htakes⟩
      rcases Nat.lt_or_ge i ms.length with hlt | hge
      · rw [List.getElem?_append_left hlt] at hm'
        rw [List.take_append_of_le_length hlt.le] at htakes
        exact .inl ⟨i, m', hm', htakes⟩
      · rw [List.getElem?_append_right hge] at hm'
        have hi : i = ms.length := by
          have hlt := (List.getElem?_eq_some_iff.1 hm').1
          simp only [List.length_singleton] at hlt
          omega
        subst hi
        simp only [Nat.sub_self, List.getElem?_cons_zero, Option.some.injEq] at hm'
        subst hm'
        exact .inr (by simpa using htakes)

/-- **What the listener is told** in a run, and of its next move. -/
structure ListenerEvents (p₀ : Publisher) (ms : List Move) : Prop where
  /-- The listener was told that a registration is live if and only if its publish succeeded, -/
  published : ∀ g, .published g ∈ (p₀.moves ms).journal ↔
    ∃! t, (p₀.moves ms).outcome? t = some (.registered g)
  /-- and was told so once. -/
  publishedOnce : ((p₀.moves ms).announced.map (·.serial)).Nodup
  /-- The listener was told that a registration was taken back if and only if the registry answered
  well to an unpublish of it, -/
  unpublished : ∀ g, .unpublished g ∈ (p₀.moves ms).journal ↔
    ∃ i m, ms[i]? = some m ∧ Takes (p₀.moves (ms.take i)) m g
  /-- and was told so once. -/
  unpublishedOnce : ((p₀.moves ms).recalled.map (·.serial)).Nodup
  /-- By then it had been told that the registration was live. -/
  inOrder : ∀ later g earlier, (p₀.moves ms).journal = later ++ .unpublished g :: earlier →
    .published g ∈ earlier
  /-- A move lets one thing be seen at most. -/
  one : ∀ m, (p₀.moves ms).Allows m → ((p₀.moves ms).move m).journal = (p₀.moves ms).journal ∨
    ∃ e, ((p₀.moves ms).move m).journal = e :: (p₀.moves ms).journal
  /-- It is the move that makes a registration live of which the listener is told, -/
  live : ∀ m, (p₀.moves ms).Allows m → ∀ g,
    ((p₀.moves ms).move m).journal = .published g :: (p₀.moves ms).journal ↔
      g ∉ (p₀.moves ms).registrar.registrations ∧
        g ∈ ((p₀.moves ms).move m).registrar.registrations
  /-- and the first one in which it is taken back. -/
  first : ∀ m, (p₀.moves ms).Allows m → ∀ g,
    ((p₀.moves ms).move m).journal = .unpublished g :: (p₀.moves ms).journal ↔
      Takes (p₀.moves ms) m g ∧ .unpublished g ∉ (p₀.moves ms).journal

/-- The listener is told that a registration is live by the move that makes it so. -/
theorem Attended.live_iff (h : p.Attended) (hm : p.Allows m) :
    (p.move m).journal = .published g :: p.journal ↔
      g ∉ p.registrar.registrations ∧ g ∈ (p.move m).registrar.registrations := by
  cases h.steady.hears_move h.listens hm with
  | silence hmade hlive hnew htold htook =>
    obtain ⟨new, hnew, hcalls⟩ := hnew
    refine iff_of_false (fun he => ?_) fun ⟨hnot, hg⟩ => hnot (hlive g hg)
    have hsame : new = [.published g] := List.append_cancel_right (hnew.symm.trans he)
    exact hcalls (.published g) (by rw [hsame]; exact List.mem_cons_self)
  | publish g' hnot hmade hlive hg' hlistened hnew htold htook =>
    rw [hnew]
    constructor
    · intro he
      cases he
      refine ⟨fun hmem => hnot ?_, hg'⟩
      obtain ⟨k, hk⟩ := Registrar.mem_registrations_iff.1 hmem
      exact h.steady.acquainted.live k g hk
    · rintro ⟨hgone, hg⟩
      rw [(hlive g hg).resolve_right hgone]
  | unpublish g' htook hnot hmade hlive hnew htold =>
    refine iff_of_false (fun he => ?_) fun ⟨hnot, hg⟩ => hnot (hlive g hg)
    cases hnew.symm.trans he

/-- The listener is told that a registration was taken back by the first move that does so. -/
theorem Attended.first_iff (h : p.Attended) (hm : p.Allows m) :
    (p.move m).journal = .unpublished g :: p.journal ↔ Takes p m g ∧ g ∉ p.recalled := by
  cases h.steady.hears_move h.listens hm with
  | silence hmade hlive hnew htold htook =>
    obtain ⟨new, hnew, hcalls⟩ := hnew
    refine iff_of_false (fun he => ?_) fun ⟨htakes, hnot⟩ => hnot ?_
    · have hsame : new = [.unpublished g] := List.append_cancel_right (hnew.symm.trans he)
      exact hcalls (.unpublished g) (by rw [hsame]; exact List.mem_cons_self)
    · exact (h.heard.mem_recalled_iff h.steady.numbered (h.steady.made_of_takes htakes)).2
        (htook g htakes)
  | publish g' hnot hmade hlive hg' hlistened hnew htold htook =>
    refine iff_of_false (fun he => ?_) fun hcases => htook g hcases.1
    cases hnew.symm.trans he
  | unpublish g' htook hnot hmade hlive hnew htold =>
    rw [hnew, htook]
    constructor
    · intro he
      cases he
      refine ⟨rfl, fun hmem => hnot ?_⟩
      exact (h.heard.mem_recalled_iff h.steady.numbered (h.heard.made g hmem)).1 hmem
    · rintro ⟨rfl, -⟩
      rfl

/-- **In every run** of a publisher's own callers the listener is told of every registration that is
made, once and at once, and of the first time that it is taken back. -/
theorem listenerEvents_moves (id : String) (limit : Option Nat)
    (hms : (fresh id true limit).AllowsAll ms) : ListenerEvents (fresh id true limit) ms := by
  have hstart := attended_fresh id limit
  have h := hstart.moves hms
  refine ⟨fun g => ?_, h.heard.announcedOnce, fun g => ?_, ?_, h.heard.inOrder, fun m hm => ?_,
    fun m hm g => h.live_iff hm, fun m hm g => ?_⟩
  · rw [← mem_announced_iff, h.heard.announced]
    simp only [outcome?_eq_some_iff]
    constructor
    · rintro ⟨t, ht⟩
      exact ⟨t, ht, fun t' ht' => h.steady.numbered.inj t' t g g ht' ht rfl⟩
    · rintro ⟨t, ht, -⟩
      exact ⟨t, ht⟩
  · rw [← Publisher.mem_recalled_iff]
    exact hstart.mem_recalled_iff hms rfl
  · rw [h.heard.recalled]
    exact h.heard.recalledOnce
  · rcases h.steady.owned.call_of_move hm.isOwn with he | ⟨e, he, -⟩
    · exact .inl he
    · exact .inr ⟨e, he⟩
  · rw [← Publisher.mem_recalled_iff]
    exact h.first_iff hm

/-- The one registration of the run below. -/
def onlyRegistration : Registration where
  serial := 1
  schema := "s"
  publisher := "id"
  record := ⟨"1", "s", none, {}⟩
  handle := ⟨0, { name := "r" }⟩
  listened := true

/-- A schema is published and published again, which is refused. An unpublish of it is under way and
another one has failed when the publisher is closed; the teardown takes it back, and then the unpublish
that was under way does. -/
def takenTwice : List Move :=
  [.ask (.publish { name := "r" } { schema := ⟨"s", "{}"⟩ }), .run 0,
    .answerPublish 0 (.record ⟨"1", "s", none, {}⟩),
    .ask (.publish { name := "r" } { schema := ⟨"s", "{}"⟩ }), .run 1,
    .ask (.unpublish onlyRegistration), .run 2, .ask (.unpublish onlyRegistration), .run 3,
    .answerUnpublish 3 (.error { text := "no" }), .ask (.close .unpublishing), .run 4, .run 4,
    .answerUnpublish 5 (.ok ()), .answerUnpublish 2 (.ok ())]

theorem listenerEvents_takenTwice :
    (fresh "id" true none).AllowsAll takenTwice ∧
      ((fresh "id" true none).moves takenTwice).announced.map (·.serial) = [1] ∧
      ((fresh "id" true none).moves takenTwice).recalled.map (·.serial) = [1] ∧
      ListenerEvents (fresh "id" true none) takenTwice := by
  have hms : (fresh "id" true none).AllowsAll takenTwice :=
    ⟨rfl, rfl, rfl, rfl, rfl, ⟨0, rfl⟩, rfl, ⟨0, rfl⟩, rfl, rfl, rfl, rfl, rfl, rfl, rfl, trivial⟩
  exact ⟨hms, by decide +kernel, by decide +kernel, listenerEvents_moves "id" none hms⟩

end Publisher
end SchemaHerald
