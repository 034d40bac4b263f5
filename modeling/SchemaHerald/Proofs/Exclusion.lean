import SchemaHerald.Proofs.OwnRuns

/-!
# One publish or one registration for each key

In a run of a publisher's own callers a key is taken by one publish that is under way or by one
registration, never by two (`Owned.nodup_keys`). The registry is called to publish only for a key
that was free, which is taken from then on (`Owned.call_of_move`). Who meets a key that is taken, or
comes after closing has begun, is refused without a call (`Owned.refused`). `Exclusive` puts the
three together.
-/
namespace SchemaHerald.Publisher

open Relation

variable {p q : Publisher} {t u : Nat} {s : Stage} {o : RegistryOptions} {d : Definition} {k : Key}

/-! ## Keys that are taken -/

/-- The keys that are taken by a publish that is under way or by a registration. -/
def takenKeys (p : Publisher) : List Key :=
  p.flights ++ p.registrar.registrations.map Registration.key

theorem mem_takenKeys_iff :
    k ∈ p.takenKeys ↔ k ∈ p.flights ∨ ∃ g ∈ p.registrar.registrations, g.key = k := by
  simp [takenKeys]

theorem Owned.mem_takenKeys_iff_slot (h : p.Owned) :
    k ∈ p.takenKeys ↔ ∃ slot, p.registrar.slots.get? k = some slot :=
  mem_takenKeys_iff.trans (h.taken_iff k).symm

/-- Registrations have different keys. -/
theorem Owned.nodup_registrations (h : p.Owned) :
    (p.registrar.registrations.map Registration.key).Nodup := by
  have hperm : p.registrar.registrations.Perm
      (p.registrar.slots.values.filterMap Slot.registration?) := List.mergeSort_perm _ _
  refine (hperm.map _).nodup_iff.2 ?_
  rw [Table.values, List.Nodup, List.pairwise_map, List.pairwise_filterMap, List.pairwise_map]
  -- the slots are in strict order of their keys, and a registration stands under its own
  refine p.registrar.slots.ordered.imp_of_mem fun {a b} ha hb hlt g hg g' hg' he => ?_
  have key_of : ∀ {e : Key × Slot} {g}, e ∈ p.registrar.slots.entries →
      e.2.registration? = some g → g.key = e.1 := by
    intro e g he hg
    have hget := (Table.mem_entries_iff p.registrar.slots e.1 e.2).1 he
    refine (h.tidy e.1 g ?_).2.1
    rw [Registrar.live?, hget]
    exact hg
  refine Table.ne_of_compare_lt hlt ?_
  rw [← key_of ha hg, ← key_of hb hg', he]

/-- **No key is taken twice.** -/
theorem Owned.nodup_keys (h : p.Owned) : p.takenKeys.Nodup := by
  refine List.nodup_append.2 ⟨h.claimed.nodup, h.nodup_registrations, fun k hk k' hk' he => ?_⟩
  -- one slot is not both reserved and registered
  obtain ⟨g, hg, rfl⟩ := List.mem_map.1 hk'
  obtain ⟨k', hlive⟩ := Registrar.mem_registrations_iff.1 hg
  have hslot := Registrar.live?_eq_some_iff.1 hlive
  have hres := (h.claimed.reserved k).2 hk
  rw [he, (h.tidy k' g hlive).2.1, hslot] at hres
  cases hres

/-! ## Calls -/

theorem free_finish (h : p.Sound) (ht : p.stage? t = some s) (outcome : Outcome)
    (hopen : (p.finish t outcome).registrar.closed = false) :
    (p.finish t outcome).registrar = p.registrar := by
  have hself : p.parent? t ≠ some t := h.parents.ne_self t
  rcases registrar_finish hself ht outcome with he | ⟨c, d, -, hd, -, he, -⟩
  · exact he
  · rw [he] at hopen
    have hclosed := (h.fits c _ hd).1
    rw [show p.registrar.closed = false from hopen] at hclosed
    cases hclosed

/-- A task frees no key by itself, unless it releases the registrar. -/
theorem Sound.free_step (h : p.Sound) (hs : Step t p q) (hopen : q.registrar.closed = false)
    (hk : q.registrar.slots.get? k = none) : p.registrar.slots.get? k = none := by
  cases hs with
  | refuse o d failure ht => rwa [free_finish h ht _ hopen] at hk
  | refuseBatch o ds outcome ht ho => rwa [free_finish h ht _ hopen] at hk
  | closeAgain td ht hc => rwa [free_finish h ht _ hopen] at hk
  | release td outcome ht h0 ho =>
    have hclosed : p.registrar.closed = true := h.fits t _ ht
    rw [(h.changes_step (.release td outcome ht h0 ho)).keeps.closed hclosed] at hopen
    cases hopen
  | reserve o o' d k' r ht ho hd hr =>
    obtain ⟨-, -, -, hreq⟩ := Registrar.reserve_eq_ok_iff.1 hr
    have hk' : (r.handleFor o').2.slots.get? k = none := hk
    rw [Registrar.slots_handleFor, hreq, Table.get?_insert] at hk'
    split at hk'
    · cases hk'
    · exact hk'
  | _ => exact hk

/-- **What a call to publish tells**: the registrar was open, the key was free, and now the task
publishes under it. -/
def CallsFree (p q : Publisher) (e : Entry) : Prop :=
  ∀ u h d, e = .publishCall u h d → p.registrar.closed = false ∧
    p.registrar.slots.get? ⟨h.name, d.name⟩ = none ∧
    q.stage? u = some (.publishing ⟨h.name, d.name⟩ h d)

/-- A step calls to publish only for a key that is free. -/
theorem Owned.callsFree_step (h : p.Owned) (hs : Step t p q) :
    ∃ new, q.journal = new ++ p.journal ∧ ∀ e ∈ new, CallsFree p q e := by
  have none : q.journal = p.journal → ∃ new, q.journal = new ++ p.journal ∧
      ∀ e ∈ new, CallsFree p q e := fun he => ⟨[], he, by simp⟩
  cases hs with
  | reserve o o' d k r ht ho hd hr =>
    refine ⟨[_], rfl, fun e he u g d' hcall => ?_⟩
    rw [List.mem_singleton.1 he] at hcall
    cases hcall
    obtain ⟨hopen, hk, hfree, -⟩ := Registrar.reserve_eq_ok_iff.1 hr
    have hstage : ((p.withRegistrar (r.handleFor o').2).setStage t
        (.publishing k (r.handleFor o').1 (d.stamp r.publisher))).stage? t =
          some (.publishing k (r.handleFor o').1 (d.stamp r.publisher)) :=
      stage?_setStage_self (p := p.withRegistrar (r.handleFor o').2) ht
    have hsound := h.sound.reserve ht ho hd hr
    obtain ⟨-, hname, hstored⟩ := hsound.fits t _ hstage
    have hregistry := hsound.named _ _ hstored
    have hkey : (⟨(r.handleFor o').1.name, (d.stamp r.publisher).name⟩ : Key) = k := by
      rw [hname, hregistry]
    rw [hkey]
    exact ⟨hopen, hfree, hstage⟩
  | unpublish g ht => exact ⟨[_], rfl, by simp [CallsFree]⟩
  | take d g rest ready ht hr => exact ⟨[_], rfl, by simp [CallsFree]⟩
  | tryPublish g d ht => cases h.stages t _ ht
  | tryUnpublish g ht => cases h.stages t _ ht
  | refuse | refuseBatch | closeAgain | release => exact none (by simp)
  | _ => exact none rfl

theorem Sound.open_of_steps (h : p.Sound) (hs : ReflTransGen (Step t) p q)
    (hopen : q.registrar.closed = false) : p.registrar.closed = false :=
  (h.changes_steps hs).keeps.open_of_open hopen

theorem Sound.free_steps (h : p.Sound) (hs : ReflTransGen (Step t) p q)
    (hopen : q.registrar.closed = false) (hk : q.registrar.slots.get? k = none) :
    p.registrar.slots.get? k = none := by
  induction hs with
  | refl => exact hk
  | tail hsteps hstep ih =>
    have hsound := h.steps hsteps
    exact ih (hsound.open_of_steps (.single hstep) hopen) (hsound.free_step hstep hopen hk)

theorem Owned.callsFree_steps (h : p.Owned) (hs : ReflTransGen (Step t) p q) :
    ∃ new, q.journal = new ++ p.journal ∧ ∀ e ∈ new, CallsFree p q e := by
  induction hs with
  | refl => exact ⟨[], rfl, by simp⟩
  | @tail q q' hsteps hstep ih =>
    obtain ⟨new, hnew, hfree⟩ := ih
    have hsound := h.sound.steps hsteps
    obtain ⟨new', hnew', hfree'⟩ := (h.steps hsteps).callsFree_step hstep
    refine ⟨new' ++ new, by rw [hnew', hnew, List.append_assoc], fun e he u g d hcall => ?_⟩
    -- a later call goes back to the start of the turn, and an earlier one goes on to its end
    rcases List.mem_append.1 he with he | he
    · obtain ⟨hopen, hk, hstage⟩ := hfree' e he u g d hcall
      exact ⟨h.sound.open_of_steps hsteps hopen, h.sound.free_steps hsteps hopen hk, hstage⟩
    · obtain ⟨hopen, hk, hstage⟩ := hfree e he u g d hcall
      exact ⟨hopen, hk, hsound.stage?_step_of_still hstep hstage trivial⟩

/-- At most one thing can be seen to happen. -/
def SeesOne (p q : Publisher) : Prop := ∃ new, q.journal = new ++ p.journal ∧ new.length ≤ 1

theorem SeesOne.of_eq (h : q.journal = p.journal) : SeesOne p q := ⟨[], h, by simp⟩

theorem SeesOne.of_cons {e : Entry} (h : q.journal = e :: p.journal) : SeesOne p q :=
  ⟨[e], h, by simp⟩

theorem seesOne_beginPublish (p : Publisher) (t : Nat) (o : RegistryOptions) (d : Definition) :
    SeesOne p (p.beginPublish t o d) := by
  unfold beginPublish
  split
  · exact .of_eq (by simp)
  · split
    · exact .of_eq (by simp)
    · split
      · exact .of_eq (by simp)
      · exact .of_cons rfl

theorem seesOne_tearDown (p : Publisher) (t : Nat) (td : Teardown) :
    SeesOne p (p.tearDown t td) := by
  unfold tearDown beginDrain
  refine .of_eq ?_
  cases td <;> dsimp only <;> repeat' split
  all_goals simp

theorem seesOne_begin (p : Publisher) (t : Nat) (parent : Option Nat) (request : Request) :
    SeesOne p (p.begin t parent request) := by
  cases request with
  | publish o d =>
    cases parent with
    | none => exact seesOne_beginPublish p t o d
    | some c =>
      dsimp only [begin]
      unfold beginMember
      split
      · split
        · exact .of_eq rfl
        · exact seesOne_beginPublish (p.setStage c _) t o d
        · exact seesOne_beginPublish p t o d
      · exact seesOne_beginPublish p t o d
  | publishAll o ds =>
    refine .of_eq ?_
    dsimp only [begin]
    unfold beginBatch
    dsimp only
    repeat' split
    all_goals simp
  | unpublish g => exact .of_cons rfl
  | close td =>
    dsimp only [begin]
    unfold beginClose
    split
    · exact .of_eq (by simp)
    · exact seesOne_tearDown (p.withRegistrar _) t td
  | tryPublish h d => exact .of_cons rfl
  | tryUnpublish g => exact .of_cons rfl

theorem seesOne_run (p : Publisher) (t : Nat) : SeesOne p (p.run t) := by
  unfold run
  split
  · dsimp only
    split
    · exact seesOne_begin { p with ready := p.ready.erase t } t _ _
    · exact seesOne_beginPublish { p with ready := p.ready.erase t } t _ _
    · unfold gather
      split <;> exact .of_eq rfl
    · exact seesOne_tearDown { p with ready := p.ready.erase t } t _
    · unfold drainNext
      split
      · exact .of_eq rfl
      · exact .of_cons rfl
    · exact .of_eq rfl
  · exact .of_eq rfl

/-- **A move lets at most one thing be seen**, and if that is a call to publish, then its key was
free and is taken now. -/
theorem Owned.call_of_move (h : p.Owned) {m : Move} (hm : m.isOwn = true) :
    (p.move m).journal = p.journal ∨
      ∃ e, (p.move m).journal = e :: p.journal ∧ CallsFree p (p.move m) e := by
  have reply : ∀ {t q}, (q = p ∨ Reply t p q) → q.journal = p.journal ∨
      ∃ e, q.journal = e :: p.journal ∧ CallsFree p q e := by
    rintro t q (rfl | hs)
    · exact .inl rfl
    · rcases journal_reply hs with he | ⟨g, he⟩ | ⟨g, he⟩
      · exact .inl he
      · exact .inr ⟨_, he, by simp [CallsFree]⟩
      · exact .inr ⟨_, he, by simp [CallsFree]⟩
  cases m with
  | ask request => exact .inl rfl
  | abandon t =>
    refine .inl ?_
    rw [Publisher.move, abandon]
    split <;> rfl
  | run t =>
    obtain ⟨new, hnew, hfree⟩ := h.callsFree_steps (run_steps p t)
    obtain ⟨new', hnew', hlen⟩ := seesOne_run p t
    have heq : new = new' := List.append_cancel_right (hnew.symm.trans hnew')
    subst heq
    cases new with
    | nil => exact .inl hnew
    | cons e rest =>
      -- one step sees at most one thing
      have hrest : rest = [] := List.eq_nil_of_length_eq_zero (by simpa using hlen)
      subst hrest
      exact .inr ⟨e, hnew, hfree e List.mem_cons_self⟩
  | answerPublish t answer => exact reply (answerPublish_reply p t answer)
  | answerUnpublish t answer => exact reply (answerUnpublish_reply p t answer)
  | reserve | drop | register | unregister | newHandle | handleFor => cases hm

/-! ## Refusals -/

/-- **A task is about to reserve a key**: it publishes, its turn has come, and it need not wait for
a permit. -/
def Attempts (p : Publisher) (t : Nat) (o : RegistryOptions) (d : Definition) : Prop :=
  t ∈ p.ready ∧ (p.stage? t = some (.permitted o d) ∨
    p.stage? t = some (.asked (.publish o d)) ∧
      ∀ c b, p.parent? t = some c → p.stage? c = some (.gathering b) → b.permits ≠ some 0)

/-- Only turns and permits differ, and the task has not moved on. -/
structure Readied (t : Nat) (p p' : Publisher) : Prop where
  registrar : p'.registrar = p.registrar
  journal : p'.journal = p.journal
  stage : p'.stage? t = p.stage? t
  parent : ∀ u, p'.parent? u = p.parent? u
  draining : ∀ c d, p'.stage? c = some (.draining d) → p.stage? c = some (.draining d)

theorem readied_ready (p : Publisher) (t : Nat) (ready : List Nat) :
    Readied t p { p with ready } :=
  ⟨rfl, rfl, rfl, fun _ => rfl, fun _ _ => id⟩

theorem readied_setStage {c : Nat} {b b' : Batch} (hb : p.stage? c = some (.gathering b))
    (hne : t ≠ c) : Readied t p (p.setStage c (.gathering b')) := by
  refine ⟨rfl, rfl, stage?_setStage_of_ne hne, parent?_setStage p c _, fun c' d hd => ?_⟩
  by_cases hcc : c' = c
  · subst hcc
    rw [stage?_setStage_self hb] at hd
    cases hd
  · rwa [stage?_setStage_of_ne hcc] at hd

theorem Readied.trans {p' p'' : Publisher} (h : Readied t p p') (h' : Readied t p' p'') :
    Readied t p p'' where
  registrar := h'.registrar.trans h.registrar
  journal := h'.journal.trans h.journal
  stage := h'.stage.trans h.stage
  parent u := (h'.parent u).trans (h.parent u)
  draining c d hd := h.draining c d (h'.draining c d hd)

/-- A task that attempts to reserve stands where a publish stands that has not called. -/
theorem Attempts.stage (h : p.Attempts t o d) :
    ∃ s, p.stage? t = some s ∧ (s = .permitted o d ∨ s = .asked (.publish o d)) := by
  obtain ⟨-, hstage | ⟨hstage, -⟩⟩ := h
  · exact ⟨_, hstage, .inl rfl⟩
  · exact ⟨_, hstage, .inr rfl⟩

/-- Such a task begins to publish in its turn. -/
theorem Attempts.run (h : p.Attempts t o d) :
    ∃ p', p.run t = Publisher.beginPublish p' t o d ∧ Readied t p p' := by
  obtain ⟨hready, hcases⟩ := h
  have hp := readied_ready p t (p.ready.erase t)
  rcases hcases with hstage | ⟨hstage, hfree⟩
  · obtain ⟨parent, ht⟩ := stage?_eq_some_iff.1 hstage
    refine ⟨_, ?_, hp⟩
    simp only [Publisher.run, List.contains_iff_mem.2 hready, ite_true, ht]
  · obtain ⟨parent, ht⟩ := stage?_eq_some_iff.1 hstage
    have hrun : p.run t = { p with ready := p.ready.erase t }.begin t parent (.publish o d) := by
      simp only [Publisher.run, List.contains_iff_mem.2 hready, ite_true, ht]
    rw [hrun]
    cases parent with
    | none => exact ⟨{ p with ready := p.ready.erase t }, rfl, hp⟩
    | some c =>
      have hparent : p.parent? t = some c := by simp [parent?, ht]
      dsimp only [begin]
      unfold beginMember
      split
      · rename_i b hb
        split
        · rename_i h0
          exact absurd h0 (hfree c b hparent hb)
        · have hne : t ≠ c := fun he => by
            rw [he] at hstage
            cases hstage.symm.trans hb
          exact ⟨_, rfl, hp.trans (readied_setStage hb hne)⟩
        · exact ⟨_, rfl, hp⟩
      · exact ⟨_, rfl, hp⟩

/-- **Who cannot reserve is refused**, without a call and without a change of the registrar. -/
theorem Owned.run_of_reserve_error (h : p.Owned) (ha : p.Attempts t o d) {o' : RegistryOptions}
    {failure : Failure} (ho : o.canonical? = .ok o') (hd : d.name.isEmpty = false)
    (hr : p.registrar.reserve o'.name d.name = .error failure) :
    (p.run t).outcome? t = some (.failed failure) ∧ (p.run t).journal = p.journal ∧
      (p.run t).registrar = p.registrar := by
  obtain ⟨p', hrun, hp⟩ := ha.run
  obtain ⟨s, hs, hcases⟩ := ha.stage
  have hbegin : p'.beginPublish t o d = p'.finish t (.failed failure) := by
    simp only [beginPublish, ho, hd, Bool.false_eq_true, ite_false, hp.registrar, hr]
  have hself : p'.parent? t ≠ some t := by
    rw [hp.parent]
    exact h.sound.parents.ne_self _
  have ht : p'.stage? t = some s := hp.stage.trans hs
  rw [hrun, hbegin]
  refine ⟨?_, ?_, ?_⟩
  · rw [outcome?_eq_some_iff]
    exact (finished_finish hself ht _).ended hself ht
  · rw [journal_finish, hp.journal]
  · rcases registrar_finish hself ht (.failed failure) with he | ⟨c, d', hc, hd', -⟩
    · rw [he, hp.registrar]
    · -- a teardown has no parts that publish
      rw [hp.parent] at hc
      have hdraining := hp.draining c d' hd'
      have hu : ∀ g, s ≠ .unpublishing g := by rcases hcases with rfl | rfl <;> simp
      have he : ∀ o, s ≠ .ended o := by rcases hcases with rfl | rfl <;> simp
      exact absurd hdraining (h.kin.not_draining hs hu he hc)

/-- A key that is taken has two names that are trimmed and not empty. -/
theorem Owned.isCanonical_of_taken (h : p.Owned) (hk : k ∈ p.takenKeys) : k.IsCanonical := by
  rcases mem_takenKeys_iff.1 hk with hk | ⟨g, hg, rfl⟩
  · obtain ⟨t, s, ht, hs⟩ := mem_flights_iff.1 hk
    cases s with
    | publishing k' g d =>
      cases hs
      exact (h.sound.fits t _ ht).1
    | _ => cases hs
  · obtain ⟨k, hk⟩ := Registrar.mem_registrations_iff.1 hg
    rw [(h.tidy k g hk).2.1]
    exact (h.tidy k g hk).1

/-- **Who meets a key that is taken** is told of a duplicate, or that the registrar is closed. -/
theorem Owned.refused (h : p.Owned) (ha : p.Attempts t o d)
    (hk : Key.canonical o.name d.schema.name ∈ p.takenKeys) :
    (p.run t).outcome? t = some (.failed (if p.registrar.closed then .registrarClosed
        else .duplicate (Text.trim o.name) (Text.trim d.schema.name))) ∧
      (p.run t).journal = p.journal := by
  have hcanonical := h.isCanonical_of_taken hk
  have ho : o.canonical? = .ok { o with name := Text.trim o.name } :=
    RegistryOptions.canonical?_eq_ok_iff.2 ⟨hcanonical.registry_ne, rfl⟩
  have hd : d.name.isEmpty = false := by
    rw [Bool.eq_false_iff]
    exact fun he => hcanonical.schema_ne (String.isEmpty_iff.1 he)
  have hr : p.registrar.reserve (Text.trim o.name) d.name =
      .error (if p.registrar.closed then .registrarClosed
        else .duplicate (Text.trim o.name) (Text.trim d.schema.name)) := by
    rw [Registrar.reserve_eq_error_iff]
    cases hc : p.registrar.closed with
    | true => exact .inl ⟨rfl, rfl⟩
    | false =>
      refine .inr ⟨rfl, ?_, ?_⟩
      · rw [Key.canonical_trim]
        exact h.mem_takenKeys_iff_slot.1 hk
      · rw [Text.trim_trim, Definition.trim_name]
        rfl
  obtain ⟨hout, hjournal, -⟩ := h.run_of_reserve_error ha ho hd hr
  exact ⟨hout, hjournal⟩

/-! ## Exclusive publishing -/

/-- **Publishing is exclusive for each key.** -/
structure Exclusive (p : Publisher) : Prop where
  /-- A key is taken by one publish that is under way or by one registration. -/
  once : p.takenKeys.Nodup
  /-- Whatever happens next, the registry is called to publish at most once, for a key that is not
  taken now and is taken then. -/
  calls : ∀ m : Move, m.isOwn = true → (p.move m).journal = p.journal ∨
    ∃ e, (p.move m).journal = e :: p.journal ∧ ∀ t h d, e = .publishCall t h d →
      ⟨h.name, d.name⟩ ∉ p.takenKeys ∧
        (p.move m).stage? t = some (.publishing ⟨h.name, d.name⟩ h d)
  /-- A publish that meets a key that is taken is refused, and the registry is not called. -/
  refused : ∀ t o d, p.Attempts t o d → Key.canonical o.name d.schema.name ∈ p.takenKeys →
    (p.run t).outcome? t = some (.failed (if p.registrar.closed then .registrarClosed
      else .duplicate (Text.trim o.name) (Text.trim d.schema.name))) ∧
    (p.run t).journal = p.journal

/-- **At all times of every run** of a publisher's own callers publishing is exclusive for each
key. -/
theorem exclusive_moves (id : String) (listening : Bool) (limit : Option Nat) (ms : List Move)
    (hms : ∀ m ∈ ms, m.isOwn = true) : ((fresh id listening limit).moves ms).Exclusive := by
  have h := owned_moves id listening limit hms
  refine ⟨h.nodup_keys, fun m hm => ?_, fun t o d ha hk => h.refused ha hk⟩
  rcases h.call_of_move hm with he | ⟨e, he, hfree⟩
  · exact .inl he
  · refine .inr ⟨e, he, fun t g d hcall => ?_⟩
    obtain ⟨-, hslot, hstage⟩ := hfree t g d hcall
    refine ⟨fun hk => ?_, hstage⟩
    obtain ⟨slot, hslot'⟩ := h.mem_takenKeys_iff_slot.1 hk
    rw [hslot] at hslot'
    cases hslot'

/-- The same schema is asked for twice, once with blanks around the names, and the first publish is
under way. -/
def sameSchemaTwice : List Move :=
  [.ask (.publish { name := " r" } { schema := ⟨"s ", "{}"⟩ }),
    .ask (.publish { name := "r" } { schema := ⟨"s", "{}"⟩ }), .run 0]

theorem exclusive_sameSchemaTwice :
    (∀ m ∈ sameSchemaTwice, m.isOwn = true) ∧
      ((fresh "id" true none).moves sameSchemaTwice).takenKeys = [⟨"r", "s"⟩] ∧
      ((fresh "id" true none).moves sameSchemaTwice).Exclusive :=
  ⟨by decide, by decide +kernel,
    exclusive_moves "id" true none sameSchemaTwice (by decide)⟩

end SchemaHerald.Publisher
