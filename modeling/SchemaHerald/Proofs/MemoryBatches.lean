import SchemaHerald.Proofs.CallsAndTurns
import SchemaHerald.Proofs.OpenHandles
import SchemaHerald.Proofs.Recoverability
import SchemaHerald.Proofs.UndisturbedCloses

/-!
# One batch and its close, with the registry in memory

A new publisher is asked for one batch, and later to close; in between tasks have turns and calls get
to the registry, in any order. As long as there is only the batch, all that happens are turns of its
tasks and answers to them (`Batching.turn`), and the answers are records, since the handle that a task
publishes through is open. So the batch is registered if it is acceptable, and fails if it is not; it
breaks off exactly for a limit that there can be no permits for (`batchEnd_of_turns`). The close that
follows succeeds and leaves nothing behind, whatever had become of the batch (`done_of_turns`).
-/
namespace SchemaHerald

/-- The stages of a batch and its members. -/
def Stage.IsBatched : Stage → Prop
  | .asked (.publish ..) | .asked (.publishAll ..) | .queued .. | .permitted .. | .publishing ..
  | .gathering _ | .ended _ => True
  | _ => False

theorem Stage.IsBatched.next {s s' : Stage} (h : s.IsBatched) (hn : s.Next s') : s'.IsBatched := by
  cases hn <;> trivial

theorem Stage.IsMember.isBatched {s : Stage} (h : s.IsMember) : s.IsBatched := by
  cases s with
  | asked request => cases request <;> trivial
  | queued | permitted | publishing | ended => trivial
  | _ => exact h.elim

/-- **A batch that a new publisher can register**: its registry has a name, and so have its schemas, of
which there are some and no two with the same one. -/
structure Acceptable (o : RegistryOptions) (ds : List Definition) : Prop where
  registry : Text.trim o.name ≠ ""
  some : ds ≠ []
  named : ∀ d ∈ ds, d.name ≠ ""
  distinct : (ds.map (·.name)).Nodup

/-- **A batch that breaks off**: it would begin, but there can be no permits for its limit. -/
structure BreaksOff (limit : Option Nat) (o : RegistryOptions) (ds : List Definition) : Prop where
  registry : Text.trim o.name ≠ ""
  some : ds ≠ []
  many : ∃ k, limit = Option.some k ∧ Batch.mostPermits < k

theorem BreaksOff.not_of_few {limit : Option Nat} {o : RegistryOptions} {ds : List Definition}
    (hlimit : ∀ k, limit = Option.some k → k ≤ Batch.mostPermits) : ¬ BreaksOff limit o ds := by
  rintro ⟨-, -, k, hk, hmany⟩
  exact Nat.not_lt.2 (hlimit k hk) hmany

/-- **What a batch of a new publisher comes to** when whatever the registry is asked to publish is
noted. -/
inductive BatchEnd (limit : Option Nat) (o : RegistryOptions) (ds : List Definition) : Outcome → Prop
  /-- Every schema is registered once. -/
  | registered (gs : List Registration) (h : Acceptable o ds) (hbegins : ¬ BreaksOff limit o ds)
      (hgs : (gs.map (·.schema)).Perm (ds.map (·.name))) : BatchEnd limit o ds (.registeredAll gs)
  /-- It is not acceptable. -/
  | failed (failure : Failure) (h : ¬ Acceptable o ds) (hbegins : ¬ BreaksOff limit o ds) :
      BatchEnd limit o ds (.failed failure)
  /-- There can be no permits for its limit. -/
  | broken (message : String) (h : BreaksOff limit o ds) : BatchEnd limit o ds (.broken message)

namespace Publisher

open Relation

variable {p q : Publisher} {t u n : Nat} {s : Stage}

/-- A step of a task that gets no parts makes none. -/
theorem Grown.sameShape (h : Grown t p q) (ht : p.stage? t = some s) (hs : ¬ s.GetsParts) :
    SameShape p q := by
  cases h with
  | same hsame => exact hsame
  | parts ts s₀ s' ht₀ hs₀ hq hts =>
    cases ht.symm.trans ht₀
    exact absurd hs₀ hs

/-- **Only a batch that begins and a teardown make tasks.** -/
theorem Sound.length_step (h : p.Sound) (hs : Step t p q)
    (hdrain : ∀ d, p.stage? t ≠ some (.draining d)) :
    q.tasks.length = p.tasks.length ∨ ∃ o ds b, p.stage? t = some (.asked (.publishAll o ds)) ∧
      q.stage? t = some (.gathering b) ∧ q.tasks.length = p.tasks.length + ds.length := by
  have hgrown := h.grown_step hs
  cases hs with
  | turn ready => exact .inl rfl
  | refuseBatch o ds outcome ht ho =>
    exact .inl (sameShape_finish (h.parents.ne_self t) ht outcome).1
  | beginBatch o o' ds ht hne ho =>
    refine .inr ⟨o, ds, p.newBatch o' ds, ht, ?_, by simp [withBatch, memberTasks]⟩
    have hold : ({ p with tasks := p.tasks ++ memberTasks t o' ds } : Publisher).stage? t =
        some (.asked (.publishAll o ds)) := by
      rw [stage?_append (p := p) rfl, if_pos (lt_length_of_stage? ht), ht]
    exact stage?_setStage_self hold
  | take d g rest ready ht hr => exact absurd ht (hdrain d)
  | _ => exact .inl (hgrown.sameShape ‹p.stage? t = some _› id).1

/-- **There is one batch**, of at most `n` schemas, and what it consists of. -/
structure OneBatch (n : Nat) (p : Publisher) : Prop where
  stages : ∀ t s, p.stage? t = some s → s.IsBatched
  few : p.tasks.length ≤ n + 1
  /-- All tasks but the first are its members. -/
  members : ∀ t, t < p.tasks.length → t = 0 ∨ p.parent? t = some 0
  /-- Before it begins there is nothing else. -/
  alone : ∀ t o ds, p.stage? t = some (.asked (.publishAll o ds)) →
    p.tasks.length = 1 ∧ ds.length ≤ n

theorem OneBatch.step (hone : p.OneBatch n) (h : p.Owned) (hs : Step t p q) : q.OneBatch n := by
  have hdrain : ∀ d, p.stage? t ≠ some (.draining d) := fun d hd => hone.stages t _ hd
  have hq := h.step hs
  have hbatched : ∀ u s, q.stage? u = some s → s.IsBatched := by
    intro u s hu
    rcases h.sound.came_step hs hu with hsame | ⟨s₀, hs₀, hn⟩ | ⟨hnew, -⟩
    · exact hone.stages u s hsame
    · exact (hone.stages u s₀ hs₀).next hn
    · -- a new task is a part of the one whose step it is, which is no teardown
      have hparent := (h.sound.grown_step hs).parent?_of_fresh hnew hu
      rcases hq.kin.part_cases hq.sound.parents hu hparent with
        ⟨b, -, hmember⟩ | ⟨d, m, hd, -⟩ | ⟨o, rfl⟩
      · exact hmember.isBatched
      · rcases h.sound.came_step hs hd with hsame | ⟨s₀, hs₀, hn⟩ | ⟨-, hfresh⟩
        · exact absurd hsame (hdrain d)
        · exact ((hone.stages t s₀ hs₀).next hn).elim
        · exact hfresh.elim
      · trivial
  rcases h.sound.length_step hs hdrain with hlength | ⟨o, ds, b, ht, ht', hlength⟩
  · refine ⟨hbatched, hlength ▸ hone.few, fun u hu => ?_, fun u o ds hu => ?_⟩
    · rw [(h.sound.grown_step hs).parent?_of_lt (by omega)]
      exact hone.members u (by omega)
    · rw [hlength]
      exact hone.alone u o ds (h.sound.callers_step hs hu trivial)
  · obtain ⟨hsingle, hle⟩ := hone.alone t o ds ht
    have hlt := lt_length_of_stage? ht
    obtain rfl : t = 0 := by omega
    refine ⟨hbatched, by omega, fun u hu => ?_, fun u o' ds' hu => ?_⟩
    · by_cases hnew : u < p.tasks.length
      · exact .inl (by omega)
      · obtain ⟨s, hs'⟩ := exists_stage? hu
        refine .inr ((h.sound.grown_step hs).parent?_of_fresh ?_ hs')
        simpa [stage?] using hnew
    · have hold := lt_length_of_stage? (h.sound.callers_step hs hu trivial)
      obtain rfl : u = 0 := by omega
      cases hu.symm.trans ht'

theorem OneBatch.reply (hone : p.OneBatch n) (h : p.Owned) (hs : Reply t p q) : q.OneBatch n := by
  obtain ⟨hlength, hparent⟩ := h.sound.sameShape_reply hs
  refine ⟨fun u s hu => ?_, hlength ▸ hone.few, fun u hu => ?_, fun u o ds hu => ?_⟩
  · rcases h.sound.came_reply hs hu with hsame | ⟨s₀, hs₀, hn⟩
    · exact hone.stages u s hsame
    · exact (hone.stages u s₀ hs₀).next hn
  · rw [hparent]
    exact hone.members u (hlength ▸ hu)
  · rw [hlength]
    exact hone.alone u o ds (h.sound.callers_reply hs hu trivial)

theorem OneBatch.steps (hone : p.OneBatch n) (h : p.Owned) (hs : ReflTransGen (Step t) p q) :
    q.OneBatch n := by
  induction hs with
  | refl => exact hone
  | tail hsteps hstep ih => exact ih.step (h.steps hsteps) hstep

/-- A new publisher that is asked for a batch. -/
theorem oneBatch_ask (id : String) (listening : Bool) (limit : Option Nat) (o : RegistryOptions)
    (ds : List Definition) : ((fresh id listening limit).ask (.publishAll o ds)).OneBatch ds.length where
  stages u s hu := by
    rcases stage?_of_ask hu with hold | rfl
    · simp [fresh, stage?] at hold
    · trivial
  few := by simp [tasks_ask, fresh]
  members u hu := .inl (by simpa [tasks_ask, fresh] using hu)
  alone u o' ds' hu := by
    rcases stage?_of_ask hu with hold | he
    · simp [fresh, stage?] at hold
    · cases he
      simp [tasks_ask, fresh]

/-- **When the batch has ended** everything has. -/
theorem OneBatch.ended (hone : p.OneBatch n) (h : p.Owned) {out : Outcome}
    (hout : p.outcome? 0 = some out) (hu : p.stage? u = some s) : ∃ o, s = .ended o := by
  have h0 := outcome?_eq_some_iff.1 hout
  rcases hone.members u (lt_length_of_stage? hu) with rfl | hparent
  · exact ⟨out, Option.some.inj (hu.symm.trans h0)⟩
  · obtain ⟨o, ho⟩ := h.kin 0 _ h0 u hparent
    exact ⟨o, Option.some.inj (hu.symm.trans ho)⟩

/-! ## What the batch comes to -/

section Outcomes

variable {o : RegistryOptions} {ds : List Definition} {ms : List Move} {out : Outcome}

/-- A batch that gathers its members' results ends with registrations, or it fails. -/
theorem Gathers.outcome {c : Nat} {registry : String} {members : List (Nat × String)}
    (h : Gathers p c registry members) (hc : p.stage? c = some (.ended out)) :
    (∃ gs, out = .registeredAll gs) ∨ ∃ failure, out = .failed failure := by
  cases h with
  | underWay b hgathering => cases hgathering.symm.trans hc
  | hasEnded b hended =>
    obtain rfl := Stage.ended.inj (Option.some.inj (hc.symm.trans hended))
    unfold Batch.outcome
    split
    · exact .inl ⟨_, rfl⟩
    · exact .inr ⟨_, rfl⟩

/-- A batch that has begun ends with registrations, or it fails. -/
theorem Regular.outcome_of_begun (h : p.Regular) (hopen : p.registrar.closed = false)
    (hne : ds ≠ []) (hname : Text.trim o.name ≠ "")
    (hlimit : ∀ n, p.limit = some n → n ≤ Batch.mostPermits)
    (hms : ∀ m ∈ ms, m.Within p.tasks.length (p.tasks.length + ds.length))
    (hout : ((p.ask (.publishAll o ds)).moves ms).outcome? p.tasks.length = some out) :
    (∃ gs, out = .registeredAll gs) ∨ ∃ failure, out = .failed failure := by
  have hawaited : Awaited (p.circumstances o fun _ _ => .record ⟨"", "", none, {}⟩) o ds
      p.tasks.length (p.ask (.publishAll o ds)) := h.awaited hopen rfl rfl hlimit
  rw [outcome?_eq_some_iff] at hout
  rcases hawaited.moves hne (RegistryOptions.canonical?_eq_ok_iff.2 ⟨hname, rfl⟩) hms with
    hstill | hcontends
  · cases hstill.asked.symm.trans hout
  · exact hcontends.gathers.outcome hout

/-- **What the first batch of a publisher comes to** if all answers are records. -/
theorem batchEnd_fresh (id : String) (listening : Bool) (limit : Option Nat)
    (hms : ∀ m ∈ ms, m.Within 0 ds.length) (haccepts : ∀ m ∈ ms, m.Accepts)
    (hout : (((fresh id listening limit).ask (.publishAll o ds)).moves ms).outcome? 0 = some out) :
    BatchEnd limit o ds out := by
  have hregular : (fresh id listening limit).Regular := regular_moves id listening limit []
  have hms' : ∀ m ∈ ms, m.Within (fresh id listening limit).tasks.length
      ((fresh id listening limit).tasks.length + ds.length) := by
    simpa [fresh] using hms
  rcases (hregular.sound.ask _).begins (stage?_ask_new (fresh id listening limit) (.publishAll o ds))
    hout with ⟨hne, hname, hlimit⟩ | hrefused
  · -- the registrar is empty, so that an acceptable batch has nothing in its way
    have hgood : Acceptable o ds → ∃ gs, out = .registeredAll gs ∧
        (gs.map (·.schema)).Perm (ds.map (·.name)) := by
      intro hacceptable
      obtain ⟨gs, rfl, hkeys, -⟩ := (hregular.succeeds rfl hname hlimit hne hacceptable.distinct
        hacceptable.named fun d _ => rfl).good ms hms' haccepts out hout
      refine ⟨gs, rfl, ?_⟩
      have hschemas := hkeys.map Key.schema
      rwa [List.map_map, List.map_map] at hschemas
    rcases hregular.outcome_of_begun rfl hne hname hlimit hms' hout with ⟨gs, rfl⟩ | ⟨failure, rfl⟩
    · obtain ⟨hdistinct, hfree⟩ := hregular.free_of_registeredAll rfl hms' hout
      have hacceptable : Acceptable o ds := ⟨hname, hne, fun d hd => (hfree d hd).1, hdistinct⟩
      obtain ⟨gs', he, hgs⟩ := hgood hacceptable
      cases he
      exact .registered gs hacceptable (BreaksOff.not_of_few hlimit) hgs
    · refine .failed failure (fun hacceptable => ?_) (BreaksOff.not_of_few hlimit)
      obtain ⟨gs, he, -⟩ := hgood hacceptable
      cases he
  · cases hrefused with
    | nothing hnil => exact .failed _ (fun h => h.some hnil) fun h => h.some hnil
    | nameless hne hname => exact .failed _ (fun h => h.registry hname) fun h => h.registry hname
    | tooMany hne hname k hk hmany message => exact .broken message ⟨hname, hne, k, hk, hmany⟩

end Outcomes

end Publisher

namespace LocalPublisher

open Relation Publisher

variable {l : LocalPublisher} {t n : Nat} {m : LocalMove} {ms : List LocalMove}

/-- A call through a handle that is open is answered with a record. -/
theorem call_of_open {k : Key} {handle : Handle} {d : Definition}
    (ht : l.publisher.stage? t = some (.publishing k handle d))
    (hopen : l.publisher.registrar.isShut handle = false) :
    (l.call t).publisher = l.publisher.answerPublish t (.record (l.memory.recordFor handle d)) := by
  simp only [call, ht, hopen, MemoryRegistry.answerPublish, MemoryRegistry.publish_of_open]

/-- **One batch with the registry in memory**, between turns. -/
structure Batching (n : Nat) (l : LocalPublisher) : Prop where
  sane : l.Sane
  late : l.publisher.registrar.ShutsLate
  manned : l.publisher.Manned
  one : l.publisher.OneBatch n

theorem batching_ask (base : Option String) (id : String) (listening : Bool) (limit : Option Nat)
    (o : RegistryOptions) (ds : List Definition) :
    Batching ds.length ((fresh base id listening limit).move (.apart (.ask (.publishAll o ds)))) where
  sane := (sane_fresh base id listening limit).move (m := .apart (.ask (.publishAll o ds))) rfl
  late := shutsLate_move (shutsLate_fresh id listening limit) (sound_fresh id listening limit) _
  manned := (manned_fresh id listening limit).ask _
  one := oneBatch_ask id listening limit o ds

/-- **Only the tasks of the batch** have turns and wait for answers. -/
theorem Batching.within (h : Batching n l) {m : Move} (hm : m.Counts l.publisher) :
    m.Within 0 n := by
  have hfew := h.one.few
  cases m with
  | run t =>
    have hlt := h.manned t hm
    exact .run t (Nat.zero_le t) (by omega)
  | answerPublish t a =>
    obtain ⟨k, handle, d, ht⟩ := hm
    have hlt := lt_length_of_stage? ht
    exact .answer t a (Nat.zero_le t) (by omega)
  | _ => exact hm.elim

/-- **A turn of a batch** makes no difference, or one of its tasks has its turn or is answered with a
record. -/
theorem Batching.turn (h : Batching n l) (hm : m.IsTurn) :
    Batching n (l.move m) ∧ ((l.move m).publisher = l.publisher ∨ ∃ m' : Move,
      m'.Counts l.publisher ∧ m'.Accepts ∧ (l.move m).publisher = l.publisher.move m') := by
  have hsane := h.sane.move (allows_of_isTurn hm)
  have hsound := h.sane.owned.sound
  cases m with
  | apart m =>
    cases m with
    | run t =>
      refine ⟨⟨hsane, shutsLate_move h.late hsound (.run t), h.manned.run t,
        h.one.steps h.sane.owned (run_steps _ t)⟩, ?_⟩
      by_cases hready : t ∈ l.publisher.ready
      · exact .inr ⟨.run t, hready, trivial, rfl⟩
      · exact .inl (run_of_not_ready hready)
    | _ => exact hm.elim
  | call t =>
    rcases l.call_answered t with he | ha
    · rw [LocalPublisher.move, he]
      exact ⟨h, .inl rfl⟩
    · have hreply := ha.reply
      have hone := h.one.reply h.sane.owned hreply
      obtain ⟨k, handle, d, hs⟩ : ∃ k handle d,
          l.publisher.stage? t = some (.publishing k handle d) := by
        generalize l.call t = l' at ha
        cases ha with
        | commit k handle d ht | lose k handle d o ht => exact ⟨k, handle, d, ht⟩
        | remove g ht | keep g cause ht => exact (h.one.stages t _ ht).elim
      have hcall := call_of_open hs (hsound.serves h.late hs).isOpen
      refine ⟨⟨hsane, ?_, ?_, hone⟩, .inr ⟨.answerPublish t
        (.record (l.memory.recordFor handle d)), ⟨k, handle, d, hs⟩, ⟨_, rfl⟩, hcall⟩⟩
      · rw [LocalPublisher.move, hcall]
        exact shutsLate_move h.late hsound (.answerPublish t _)
      · rw [LocalPublisher.move, hcall]
        exact h.manned.answerPublish t _

/-- **All along turns and calls** there are turns of the batch and records for it. -/
theorem Batching.turns (h : Batching n l) (hms : ∀ m ∈ ms, m.IsTurn) :
    Batching n (l.moves ms) ∧ ∃ ms' : List Move, (∀ m' ∈ ms', m'.Within 0 n) ∧
      (∀ m' ∈ ms', m'.Accepts) ∧ (l.moves ms).publisher = l.publisher.moves ms' := by
  induction ms generalizing l with
  | nil => exact ⟨h, [], by simp, by simp, rfl⟩
  | cons m ms ih =>
    obtain ⟨hnext, hcases⟩ := h.turn (hms m List.mem_cons_self)
    obtain ⟨hlast, later, hlater, haccepts, he⟩ :=
      ih hnext fun m' hm' => hms m' (List.mem_cons_of_mem m hm')
    refine ⟨hlast, ?_⟩
    rcases hcases with hsame | ⟨m', hcounts, haccept, hmove⟩
    · rw [hsame] at he
      exact ⟨later, hlater, haccepts, he⟩
    · rw [hmove] at he
      exact ⟨m' :: later, List.forall_mem_cons.2 ⟨h.within hcounts, hlater⟩,
        List.forall_mem_cons.2 ⟨haccept, haccepts⟩, he⟩

/-- **What a batch comes to with the registry in memory**, whatever order turns and calls come in. -/
theorem batchEnd_of_turns (base : Option String) (id : String) (listening : Bool)
    (limit : Option Nat) (o : RegistryOptions) (ds : List Definition) (hms : ∀ m ∈ ms, m.IsTurn)
    {out : Outcome}
    (hout : (((fresh base id listening limit).move (.apart (.ask (.publishAll o ds)))).moves
      ms).publisher.outcome? 0 = some out) : BatchEnd limit o ds out := by
  obtain ⟨-, ms', hms', haccepts, he⟩ := (batching_ask base id listening limit o ds).turns hms
  rw [he] at hout
  exact batchEnd_fresh id listening limit hms' haccepts hout

/-! ## The close after the batch -/

variable {start : LocalPublisher} {c : Nat}

/-- **As long as nobody is asked to close** the registrar is open. -/
theorem open_of_turns (h : l.Sane) (hms : ∀ m ∈ ms, m.IsTurn)
    (hopen : l.publisher.registrar.closed = false)
    (hno : ∀ u td, l.publisher.stage? u ≠ some (.asked (.close td))) :
    (l.moves ms).publisher.registrar.closed = false := by
  induction ms generalizing l with
  | nil => exact hopen
  | cons m ms ih =>
    have hm := hms m List.mem_cons_self
    refine ih (h.move (allows_of_isTurn hm)) (fun m' hm' => hms m' (List.mem_cons_of_mem m hm')) ?_
      fun u td hu => hno u td (h.callers_turn hm hu trivial)
    cases m with
    | apart m =>
      cases m with
      | run t =>
        cases hclosed : (l.publisher.run t).registrar.closed with
        | false => exact hclosed
        | true =>
          obtain ⟨c, -, -, hasked⟩ := h.owned.closes_move (m := .run t) rfl hopen hclosed
          exact absurd hasked (hno c _)
      | _ => exact hm.elim
    | call t =>
      rcases l.call_answered t with he | ha
      · rwa [LocalPublisher.move, he]
      · exact (h.owned.sound.closed_reply ha.reply).trans hopen

/-- Task `c` is to close the registrar, which is open, and nobody else is. -/
structure ToClose (l : LocalPublisher) (c : Nat) : Prop where
  asked : l.publisher.stage? c = some (.asked (.close .unpublishing))
  isOpen : l.publisher.registrar.closed = false
  sole : ∀ u td, l.publisher.stage? u = some (.asked (.close td)) → u = c

/-- **The first turn of a close** closes the registrar, and no other turn does. -/
theorem ToClose.turn (hto : l.ToClose c) (h : l.Sane) (hm : m.IsTurn) :
    (l.move m).ToClose c ∨
      (m = .apart (.run c) ∧ (l.move m).publisher.registrar.closed = true) := by
  have hsole : ∀ u td, (l.move m).publisher.stage? u = some (.asked (.close td)) → u = c :=
    fun u td hu => hto.sole u td (h.callers_turn hm hu trivial)
  cases m with
  | apart m =>
    cases m with
    | run t =>
      rcases h.owned.sound.stage?_move hto.asked id id (.run t) with hstill | ⟨he, hready⟩
      · cases hclosed : (l.publisher.run t).registrar.closed with
        | false => exact .inl ⟨hstill, hclosed, hsole⟩
        | true =>
          obtain ⟨c', he, -, hasked⟩ := h.owned.closes_move (m := .run t) rfl hto.isOpen hclosed
          obtain rfl := hto.sole c' _ hasked
          cases he
          exact .inr ⟨rfl, hclosed⟩
      · cases he
        refine .inr ⟨rfl, ?_⟩
        have howned := (h.move (m := .apart (.run c)) rfl).owned
        rcases h.owned.run_close h.called hready hto.asked hto.isOpen with hwait | ⟨-, htd⟩
        · exact howned.sound.fits c _ hwait
        · exact (htd.quiet howned).closed
    | _ => exact hm.elim
  | call t =>
    rcases l.call_answered t with he | ha
    · exact .inl (by rwa [LocalPublisher.move, he])
    · exact .inl ⟨h.owned.sound.stage?_reply ha.reply hto.asked id id,
        (h.owned.sound.closed_reply ha.reply).trans hto.isOpen, hsole⟩

/-- **All along turns and calls** the close has not begun, or it has closed the registrar. -/
theorem ToClose.turns (hto : l.ToClose c) (h : l.Sane) (hms : ∀ m ∈ ms, m.IsTurn) :
    (l.moves ms).ToClose c ∨ ClosedBy l ms c := by
  induction ms using List.reverseRecOn with
  | nil => exact .inl hto
  | append_singleton ms m ih =>
    have hms' : ∀ m ∈ ms, m.IsTurn := fun m' hm' => hms m' (List.mem_append_left _ hm')
    rcases ih hms' with hstill | hby
    · rw [moves_concat]
      have hm := hms m (by simp)
      rcases hstill.turn (sane_moves h (allowsAll_of_isTurn hms')) hm with hnext | ⟨rfl, hclosed⟩
      · exact .inl hnext
      · exact .inr ⟨ms, [], rfl, hstill.asked, hstill.isOpen, by rwa [moves_concat]⟩
    · exact .inr (hby.concat m)

/-- Who closed the registrar in a part of a run did so in the run. -/
theorem ClosedBy.after {first : List LocalMove} (h : ClosedBy (start.moves first) ms c) :
    ClosedBy start (first ++ ms) c := by
  obtain ⟨past, future, rfl, hasked, hopen, hclosed⟩ := h
  refine ⟨first ++ past, future, by simp, ?_, ?_, ?_⟩
  · rwa [moves_append]
  · rwa [moves_append]
  · rwa [List.append_assoc, moves_append]

/-- **A batch, and a close after it**: what happens in between and afterwards are turns and calls. -/
def course (o : RegistryOptions) (ds : List Definition) (first later : List LocalMove) :
    List LocalMove :=
  (.apart (.ask (.publishAll o ds)) :: first) ++ .apart (.ask (.close .unpublishing)) :: later

/-- **The close after a batch** succeeds when it ends, whatever order turns and calls come in and
whatever had become of the batch: nothing is stored, nothing is live, and there are no handles. -/
theorem done_of_turns (base : Option String) (id : String) (listening : Bool)
    (limit : Option Nat) (o : RegistryOptions) (ds : List Definition) {first later : List LocalMove}
    (hfirst : ∀ m ∈ first, m.IsTurn) (hlater : ∀ m ∈ later, m.IsTurn) {out : Outcome}
    (hc : c = ((fresh base id listening limit).moves
      (.apart (.ask (.publishAll o ds)) :: first)).publisher.tasks.length)
    (hout : ((fresh base id listening limit).moves (course o ds first later)).publisher.outcome? c =
      some out) :
    out = .done ∧ ((fresh base id listening limit).moves (course o ds first later)).memory.stored = [] ∧
      ((fresh base id listening limit).moves (course o ds first later)).publisher.registrar.Bare := by
  have hbatching := batching_ask base id listening limit o ds
  obtain ⟨hbatched, -⟩ := hbatching.turns hfirst
  have hopen := open_of_turns hbatching.sane hfirst rfl fun u td hu => hbatching.one.stages u _ hu
  have hto : ToClose (((fresh base id listening limit).moves
      (.apart (.ask (.publishAll o ds)) :: first)).move (.apart (.ask (.close .unpublishing)))) c := by
    refine ⟨hc ▸ stage?_ask_new _ _, hopen, fun u td hu => ?_⟩
    rcases task_of_ask hu with hold | ⟨he, -⟩
    · exact (hbatched.one.stages u _ hold).elim
    · exact he.trans hc.symm
  have hclose : ∀ m ∈ course o ds first later, m = .apart (.ask (.publishAll o ds)) ∨
      m = .apart (.ask (.close .unpublishing)) ∨ m.IsTurn := by
    intro m hm
    rcases List.mem_append.1 hm with hm | hm
    · exact (List.mem_cons.1 hm).imp_right fun hm => .inr (hfirst m hm)
    · exact .inr ((List.mem_cons.1 hm).imp_right (hlater m))
  have hcourse : course o ds first later = (.apart (.ask (.publishAll o ds)) :: first ++
      [.apart (.ask (.close .unpublishing))]) ++ later := by simp [course]
  have hall : (fresh base id listening limit).AllowsAll (course o ds first later) :=
    allowsAll_append.2 ⟨⟨rfl, allowsAll_of_isTurn hfirst⟩, rfl, allowsAll_of_isTurn hlater⟩
  have hby : ClosedBy (fresh base id listening limit) (course o ds first later) c := by
    have hsane := hbatched.sane.move (m := .apart (.ask (.close .unpublishing))) rfl
    rcases hto.turns hsane hlater with hstill | hby
    · rw [outcome?_eq_some_iff, course, moves_append] at hout
      cases hstill.asked.symm.trans hout
    · rw [hcourse]
      refine ClosedBy.after ?_
      rwa [moves_concat]
  refine done_of_unasked base id listening limit hall (fun m hm => ?_) (fun g hmem => ?_) hby hout
  · rcases hclose m hm with rfl | rfl | hturn
    · trivial
    · trivial
    · exact arrives_of_isTurn hturn
  · rcases hclose _ hmem with he | he | hturn
    · cases he
    · cases he
    · exact hturn

end LocalPublisher
end SchemaHerald
