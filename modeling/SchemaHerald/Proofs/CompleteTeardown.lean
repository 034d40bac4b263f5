import SchemaHerald.Proofs.Exclusion
import SchemaHerald.Proofs.Teardowns

/-!
# Closing takes everything back

A run is split at the turn in which a task finds the registrar open and closes it. From then on every
publish that gets to its reservation is refused (`Owned.refusesAll`). The task waits until nothing
is reserved; then it takes back what is live (`Owned.waiting_move`), and no registration is made any
more (`Owned.registered_of_quiet`). Every registration that was made by then is live or was
unpublished (`Ledger`). `teardown_complete` puts this together.
-/
namespace SchemaHerald.Publisher

open Relation

variable {p q start : Publisher} {t u c : Nat} {s s' : Stage} {o : Outcome} {g : Registration}
  {ms past future before after : List Move} {m : Move}

/-! ## Refusals -/

/-- **Every publish with names is refused** that comes to reserve its key: the registry is not called
and no handle is made. -/
def RefusesAll (p : Publisher) : Prop :=
  ∀ t (options : RegistryOptions) (d : Definition), p.Attempts t options d →
    Text.trim options.name ≠ "" → Text.trim d.schema.name ≠ "" →
    (p.run t).outcome? t = some (.failed .registrarClosed) ∧ (p.run t).journal = p.journal ∧
      (p.run t).registrar = p.registrar

/-- A registrar that is closed takes no reservation. -/
theorem Owned.refusesAll (h : p.Owned) (hc : p.registrar.closed = true) : p.RefusesAll := by
  intro t options d ha hr hs
  have ho : options.canonical? = .ok { options with name := Text.trim options.name } :=
    RegistryOptions.canonical?_eq_ok_iff.2 ⟨hr, rfl⟩
  have hd : d.name.isEmpty = false :=
    Bool.eq_false_iff.2 fun he => hs (String.isEmpty_iff.1 he)
  exact h.run_of_reserve_error ha ho hd (Registrar.reserve_eq_error_iff.2 (.inl ⟨hc, rfl⟩))

/-! ## Registrations that were made -/

/-- **A registration was unpublished**: the registry answered well to an unpublish of one like it
while it was live. -/
def Withdrawn (start : Publisher) (ms : List Move) (g : Registration) : Prop :=
  ∃ earlier m later u g', ms = earlier ++ m :: later ∧
    g ∈ (start.moves earlier).registrar.registrations ∧
    (start.moves earlier).stage? u = some (.unpublishing g') ∧ g.alike g' = true ∧
    (start.moves (earlier ++ [m])).outcome? u = some .done

theorem Withdrawn.append (h : Withdrawn start ms g) (m : Move) : Withdrawn start (ms ++ [m]) g := by
  obtain ⟨earlier, m', later, u, g', hms, hrest⟩ := h
  exact ⟨earlier, m', later ++ [m], u, g', by rw [hms, List.append_assoc, List.cons_append], hrest⟩

/-- **Every registration that was made** is live or was unpublished. -/
def Ledger (start : Publisher) (ms : List Move) : Prop :=
  ∀ t g, (start.moves ms).outcome? t = some (.registered g) →
    (start.moves ms).registrar.live? g.key = some g ∨ Withdrawn start ms g

/-- A registration that is made is live. -/
theorem Owned.registered_move (h : p.Owned) (hm : m.isOwn = true)
    (hu : (p.move m).stage? u = some (.ended (.registered g))) :
    p.stage? u = some (.ended (.registered g)) ∨ (p.move m).registrar.live? g.key = some g := by
  refine h.move_induction (P := fun q => q.stage? u = some (.ended (.registered g)) →
    p.stage? u = some (.ended (.registered g)) ∨ q.registrar.live? g.key = some g) hm ?_ ?_ ?_
    .inl hu
  · exact fun request _ hu => .inl (ended_of_ask hu)
  · intro t q q' hq hs ih hu
    rw [hq.live?_step hs]
    exact ih (hq.sound.registered_step hs hu)
  · intro t q hs hu
    rcases h.sound.registered_reply hs hu with he | ⟨rfl, k, handle, d, record, ht, hg, hr⟩
    · exact .inl he
    · obtain ⟨-, -, hh⟩ := h.sound.fits u _ ht
      have hkey : g.key = k := by
        rw [hg]
        exact congrArg (Key.mk · k.schema) (h.sound.named _ _ hh)
      rw [hr, Registrar.live?_register, if_pos hkey, hg]
      exact .inr rfl

/-- **A registration that is live stays so** until one like it is unpublished or a teardown is
complete. -/
theorem Owned.live?_move (h : p.Owned) (hm : m.isOwn = true) {k : Key}
    (hg : p.registrar.live? k = some g) :
    (p.move m).registrar.live? k = some g ∨
      (∃ u g', p.stage? u = some (.unpublishing g') ∧ g.alike g' = true ∧
        (p.move m).outcome? u = some .done) ∨
      Completes p (p.move m) := by
  have reply : ∀ {t q}, q = p ∨ Reply t p q → q.registrar.live? k = some g ∨
      (∃ u g', p.stage? u = some (.unpublishing g') ∧ g.alike g' = true ∧
        q.outcome? u = some .done) ∨ Completes p q := by
    rintro t q (rfl | hs)
    · exact .inl hg
    · rcases h.sound.live?_reply hs hg with hlive | ⟨g', ht, hdone, -, halike⟩ | hcomplete
      · exact .inl hlive
      · exact .inr (.inl ⟨t, g', ht, halike, outcome?_eq_some_iff.2 hdone⟩)
      · exact .inr (.inr hcomplete)
  cases m with
  | ask request => exact .inl hg
  | abandon t => exact .inl ((h.live?_steps (abandon_steps p t) k).trans hg)
  | run t => exact .inl ((h.live?_steps (run_steps p t) k).trans hg)
  | answerPublish t answer => exact reply (answerPublish_reply p t answer)
  | answerUnpublish t answer => exact reply (answerUnpublish_reply p t answer)
  | reserve | drop | register | unregister | newHandle | handleFor => cases hm

/-- **A move keeps the ledger**, unless a teardown is complete by it. -/
theorem Ledger.move (hledger : Ledger start ms) (h : (start.moves ms).Owned) (hm : m.isOwn = true)
    (hno : ¬ Completes (start.moves ms) ((start.moves ms).move m)) : Ledger start (ms ++ [m]) := by
  intro t g hout
  rw [moves_concat] at hout ⊢
  rw [outcome?_eq_some_iff] at hout
  rcases h.registered_move hm hout with hold | hlive
  · rcases hledger t g (outcome?_eq_some_iff.2 hold) with hlive | hwithdrawn
    · rcases h.live?_move hm hlive with hlive' | ⟨u, g', hu, halike, hdone⟩ | hcomplete
      · exact .inl hlive'
      · refine .inr ⟨ms, m, [], u, g', rfl, ?_, hu, halike, ?_⟩
        · exact Registrar.mem_registrations_iff.2 ⟨_, hlive⟩
        · rw [moves_concat]
          exact hdone
      · exact absurd hcomplete hno
    · exact .inr (hwithdrawn.append m)
  · exact .inl hlive

theorem Sound.not_completes (h : p.Sound) (hopen : p.registrar.closed = false) :
    ¬ Completes p q := by
  rintro ⟨c, d, o, hc, -⟩
  exact h.not_closing hopen hc trivial

/-- As long as the registrar is open the ledger is kept. -/
theorem ledger_of_open (id : String) (listening : Bool) (limit : Option Nat)
    (hms : ∀ m ∈ ms, m.isOwn = true)
    (hopen : ((fresh id listening limit).moves ms).registrar.closed = false) :
    Ledger (fresh id listening limit) ms := by
  induction ms using List.reverseRecOn with
  | nil =>
    intro t g ht
    simp [outcome?, fresh, moves, stage?] at ht
  | append_singleton ms m ih =>
    have hms' : ∀ m ∈ ms, m.isOwn = true := fun m' hm' => hms m' (List.mem_append_left _ hm')
    have hm : m.isOwn = true := hms m (by simp)
    have h := owned_moves id listening limit hms'
    have hopen' : ((fresh id listening limit).moves ms).registrar.closed = false := by
      rw [moves_concat] at hopen
      exact (h.sound.changes_move (Move.not_isDirect_of_isOwn hm)).keeps.open_of_open hopen
    exact (ih hms' hopen').move h hm (h.sound.not_completes hopen')

/-- **When nothing is reserved and nothing can be**, no registration is made. -/
theorem Owned.registered_of_quiet (h : p.Owned) (hquiet : p.registrar.Quiet) (hm : m.isOwn = true)
    (hu : (p.move m).stage? u = some (.ended (.registered g))) :
    p.stage? u = some (.ended (.registered g)) := by
  refine h.move_induction (P := fun q => q.stage? u = some (.ended (.registered g)) →
    p.stage? u = some (.ended (.registered g))) hm ?_ ?_ ?_ id hu
  · exact fun request _ hu => ended_of_ask hu
  · exact fun t q q' hq hs ih hu => ih (hq.sound.registered_step hs hu)
  · intro t q hs hu
    rcases h.sound.registered_reply hs hu with he | ⟨-, k, handle, d, record, ht, -⟩
    · exact he
    · exact absurd hquiet.idle (h.sound.not_idle ht)

/-! ## The task that closes -/

theorem SoleCloser.move (hsole : SoleCloser p c) (h : p.Owned) (hc : p.registrar.closed = true)
    (hm : m.isOwn = true) : SoleCloser (p.move m) c := by
  have hboth : (p.move m).registrar.closed = true ∧ SoleCloser (p.move m) c := by
    refine h.move_induction (P := fun q => q.registrar.closed = true ∧ SoleCloser q c) hm ?_ ?_ ?_
      ⟨hc, hsole⟩
    · exact fun request _ => ⟨hc, hsole.ask request⟩
    · exact fun t q q' hq hs ⟨hcq, hsq⟩ =>
        ⟨(hq.sound.changes_step hs).keeps.closed hcq, hsq.step hq.sound hcq hs⟩
    · exact fun t q hs =>
        ⟨(h.sound.changes_reply hs).keeps.closed hc, hsole.reply h.sound hs⟩
  exact hboth.2

/-- The task that closes an open registrar is the only one to close. -/
theorem Owned.soleCloser_run (h : p.Owned) (hopen : p.registrar.closed = false) :
    SoleCloser (p.run c) c := by
  have hsteps : ∀ q, ReflTransGen (Step c) p q → SoleCloser q c := by
    intro q hs
    induction hs with
    | refl => exact fun u s hu hs => absurd hs (h.sound.not_closing hopen hu)
    | tail hsteps hstep ih =>
      intro u s hu hs
      by_cases huc : u = c
      · exact huc
      · obtain ⟨s₀, hs₀, hclosing⟩ := (h.steps hsteps).sound.closing_step hstep (.inr huc) hu hs
        exact ih u s₀ hs₀ hclosing
  exact hsteps _ (run_steps p c)

/-- **A task that waits** stays as it is, or it is its turn and it takes back what is live. -/
theorem Owned.waiting_move (h : p.Owned) (hcalled : p.Called)
    (hc : p.stage? c = some (.waiting .unpublishing)) (m : Move) :
    (p.move m).stage? c = some (.waiting .unpublishing) ∨
      (m = .run c ∧ p.registrar.inFlight = 0 ∧
        TearsDown (p.move m) c p.registrar.registrations) := by
  rcases h.sound.stage?_move hc id id m with hwait | ⟨rfl, -⟩
  · exact .inl hwait
  · rcases h.waiting_steps hcalled (run_steps p c) hc with ⟨hwait, -⟩ | ⟨-, h0, htd⟩
    · exact .inl hwait
    · exact .inr ⟨rfl, h0, htd⟩

/-! ## From the close to its end -/

theorem Sound.registered_steps (h : p.Sound) (hs : ReflTransGen (Step t) p q)
    (hu : q.stage? u = some (.ended (.registered g))) :
    p.stage? u = some (.ended (.registered g)) := by
  induction hs with
  | refl => exact hu
  | tail hsteps hstep ih => exact ih ((h.steps hsteps).registered_step hstep hu)

/-- While a teardown is under way and after it nothing is reserved and nothing can be. -/
theorem TearsDown.quiet {gs : List Registration} (htd : TearsDown p c gs) (h : p.Owned) :
    p.registrar.Quiet := by
  cases htd with
  | underWay d hc hgs hcalls => exact ⟨(h.sound.fits c _ hc).1, (h.sound.fits c _ hc).2⟩
  | hasEnded d hc hgs hd hends hcalls hbare => exact hbare.toQuiet

/-- **How far a close has come**: it waits, or it has begun in a later turn to take back what was
live before that turn, and no registration was made since. -/
inductive Closing (start : Publisher) (c : Nat) (past ms : List Move) : Prop
  | waits (hc : (start.moves ms).stage? c = some (.waiting .unpublishing))
      (hsole : SoleCloser (start.moves ms) c) (hledger : Ledger start ms)
  | takesBack (before after : List Move) (hms : ms = before ++ .run c :: after)
      (hlen : past.length ≤ before.length) (h0 : (start.moves before).registrar.inFlight = 0)
      (hledger : Ledger start before)
      (htd : TearsDown (start.moves ms) c (start.moves before).registrar.registrations)
      (hfinal : ∀ u g, (start.moves ms).stage? u = some (.ended (.registered g)) →
        (start.moves before).stage? u = some (.ended (.registered g)))

/-- **The first turn of a close** that finds the registrar open. -/
theorem Owned.closing_run (h : (start.moves past).Owned) (hcalled : (start.moves past).Called)
    (hledger : Ledger start past) (hready : c ∈ (start.moves past).ready)
    (hc : (start.moves past).stage? c = some (.asked (.close .unpublishing)))
    (hopen : (start.moves past).registrar.closed = false) :
    Closing start c past (past ++ [.run c]) := by
  rcases h.run_close hcalled hready hc hopen with hwait | ⟨h0, htd⟩
  · have hmoves : start.moves (past ++ [.run c]) = (start.moves past).run c := moves_concat ..
    refine .waits ?_ ?_ (hledger.move h rfl (h.sound.not_completes hopen))
    · rw [hmoves]
      exact hwait
    · rw [hmoves]
      exact h.soleCloser_run hopen
  · refine .takesBack past [] rfl le_rfl h0 hledger ?_ fun u g hu => ?_
    · rw [moves_concat]
      exact htd
    · rw [moves_concat] at hu
      exact h.sound.registered_steps (run_steps _ c) hu

/-- **A move** does not stop a close. -/
theorem Closing.move (hclosing : Closing start c past ms) (h : (start.moves ms).Owned)
    (hcalled : (start.moves ms).Called) (hc : (start.moves ms).registrar.closed = true)
    (hlen : past.length ≤ ms.length) (hm : m.isOwn = true) :
    Closing start c past (ms ++ [m]) := by
  have hmoves : start.moves (ms ++ [m]) = (start.moves ms).move m := moves_concat ..
  cases hclosing with
  | waits hwait hsole hledger =>
    rcases h.waiting_move hcalled hwait m with hwait' | ⟨rfl, h0, htd⟩
    · refine .waits (hmoves ▸ hwait') (hmoves ▸ hsole.move h hc hm) (hledger.move h hm ?_)
      -- no other teardown is under way that could be complete
      rintro ⟨c', d, o, hc', -⟩
      rw [hsole c' _ hc' trivial, hwait] at hc'
      cases hc'
    · refine .takesBack ms [] rfl hlen h0 hledger (hmoves ▸ htd) fun u g hu => ?_
      rw [hmoves] at hu
      exact h.sound.registered_steps (run_steps _ c) hu
  | takesBack before after hms hlen' h0 hledger htd hfinal =>
    refine .takesBack before (after ++ [m]) ?_ hlen' h0 hledger (hmoves ▸ htd.move h hcalled hm)
      fun u g hu => ?_
    · rw [hms, List.append_assoc, List.cons_append]
    · rw [hmoves] at hu
      exact hfinal u g (h.registered_of_quiet (htd.quiet h) hm hu)

/-- **What a teardown does** that task `c` begins in its turn after the moves `before`, as it stands
after the moves `after`. -/
structure TakesBack (start : Publisher) (c : Nat) (before after : List Move) : Prop where
  /-- Nothing is reserved when it begins. -/
  idle : (start.moves before).registrar.inFlight = 0 ∧ (start.moves before).flights = []
  /-- Whoever had a reservation by then has failed, or has made a registration that is live or was
  unpublished. -/
  settled : ∀ earlier later t k h d, before = earlier ++ later →
    (start.moves earlier).stage? t = some (.publishing k h d) →
    (∃ failure, (start.moves before).outcome? t = some (.failed failure)) ∨
      (∃ message, (start.moves before).outcome? t = some (.broken message)) ∨
      ∃ g, (start.moves before).outcome? t = some (.registered g) ∧
        (g ∈ (start.moves before).registrar.registrations ∨ Withdrawn start before g)
  /-- No registration is made afterwards. -/
  final : ∀ t g, (start.moves (before ++ .run c :: after)).outcome? t = some (.registered g) →
    (start.moves before).outcome? t = some (.registered g)
  /-- What is live has different keys. -/
  distinct : ((start.moves before).registrar.registrations.map Registration.key).Nodup
  /-- The registry is called to unpublish what is live, each registration once and in order. -/
  calls : (start.moves (before ++ .run c :: after)).callsBy c <+:
    (start.moves before).registrar.registrations
  /-- When it has ended, the registry was called for all of it, nothing is live or reserved, there
  are no handles, and every handle that there ever was is shut. -/
  ended : ∀ o, (start.moves (before ++ .run c :: after)).outcome? c = some o →
    (start.moves (before ++ .run c :: after)).callsBy c =
        (start.moves before).registrar.registrations ∧
      (start.moves (before ++ .run c :: after)).registrar.slots = {} ∧
      (start.moves (before ++ .run c :: after)).registrar.registrations = [] ∧
      (start.moves (before ++ .run c :: after)).registrar.handles = {} ∧
      ∀ earlier later, before ++ .run c :: after = earlier ++ later →
        ∀ n h, (start.moves earlier).registrar.handles.get? n = some h →
          (start.moves (before ++ .run c :: after)).registrar.isShut h = true

/-- A publish that is under way goes on to be under way, or ends. -/
theorem cases_of_leads_publishing {k : Key} {h : Handle} {d : Definition}
    (hl : (Stage.publishing k h d).Leads s) :
    s = .publishing k h d ∨ (∃ failure, s = .ended (.failed failure)) ∨
      (∃ message, s = .ended (.broken message)) ∨ ∃ g, s = .ended (.registered g) := by
  induction hl with
  | refl => exact .inl rfl
  | tail _ hn ih =>
    rcases ih with rfl | ⟨failure, rfl⟩ | ⟨message, rfl⟩ | ⟨g, rfl⟩
    · cases hn with
      | commit k h d g hs hh => exact .inr (.inr (.inr ⟨g, rfl⟩))
      | lose k h d outcome ho =>
        rcases ho with ⟨failure, rfl⟩ | ⟨message, rfl⟩
        · exact .inr (.inl ⟨failure, rfl⟩)
        · exact .inr (.inr (.inl ⟨message, rfl⟩))
    all_goals cases hn

/-- Whoever publishes has settled by the time when nothing is reserved. -/
theorem Owned.settled (h : (start.moves before).Owned) (hledger : Ledger start before)
    (h0 : (start.moves before).registrar.inFlight = 0) {earlier later : List Move}
    (hbefore : before = earlier ++ later) (hsound : (start.moves earlier).Sound) {k : Key}
    {handle : Handle} {d : Definition}
    (ht : (start.moves earlier).stage? t = some (.publishing k handle d)) :
    (∃ failure, (start.moves before).outcome? t = some (.failed failure)) ∨
      (∃ message, (start.moves before).outcome? t = some (.broken message)) ∨
      ∃ g, (start.moves before).outcome? t = some (.registered g) ∧
        (g ∈ (start.moves before).registrar.registrations ∨ Withdrawn start before g) := by
  have hmoves : start.moves before = (start.moves earlier).moves later := by
    rw [hbefore, moves_append]
  obtain ⟨s', hs', hl⟩ := hsound.goes_moves later t _ ht
  rw [← hmoves] at hs'
  rcases cases_of_leads_publishing hl with rfl | ⟨failure, rfl⟩ | ⟨message, rfl⟩ | ⟨g, rfl⟩
  · -- it would hold a reservation still
    have hmem : k ∈ (start.moves before).flights := mem_flights_iff.2 ⟨t, _, hs', rfl⟩
    rw [h.claimed.eq_nil h0] at hmem
    cases hmem
  · exact .inl ⟨failure, outcome?_eq_some_iff.2 hs'⟩
  · exact .inr (.inl ⟨message, outcome?_eq_some_iff.2 hs'⟩)
  · have hout := outcome?_eq_some_iff.2 hs'
    refine .inr (.inr ⟨g, hout, (hledger t g hout).imp_left fun hlive => ?_⟩)
    exact Registrar.mem_registrations_iff.2 ⟨_, hlive⟩

/-- A teardown has called for a part of what it takes back, and in the end for all of it. -/
theorem TearsDown.calls {gs : List Registration} (htd : TearsDown p c gs) : p.callsBy c <+: gs := by
  cases htd with
  | underWay d hc hgs hcalls =>
    rw [hcalls, ← hgs]
    exact List.prefix_append _ _
  | hasEnded d hc hgs hd hends hcalls hbare => exact hcalls ▸ List.prefix_rfl

theorem TearsDown.ended {gs : List Registration} (htd : TearsDown p c gs)
    (ho : p.outcome? c = some o) : p.callsBy c = gs ∧ p.registrar.Bare := by
  cases htd with
  | underWay d hc hgs hcalls =>
    rw [outcome?_eq_some_iff, hc] at ho
    cases ho
  | hasEnded d hc hgs hd hends hcalls hbare => exact ⟨hcalls, hbare⟩

/-- What a close has come to is what the registrations taken back say. -/
theorem Closing.takesBack_or_waits (id : String) (listening : Bool) (limit : Option Nat)
    (hms : ∀ m ∈ ms, m.isOwn = true) (hclosing : Closing (fresh id listening limit) c past ms) :
    ((fresh id listening limit).moves ms).stage? c = some (.waiting .unpublishing) ∨
      ∃ before after, ms = before ++ .run c :: after ∧ past.length ≤ before.length ∧
        TakesBack (fresh id listening limit) c before after := by
  cases hclosing with
  | waits hc hsole hledger => exact .inl hc
  | takesBack before after hsplit hlen h0 hledger htd hfinal =>
    refine .inr ⟨before, after, hsplit, hlen, ?_⟩
    have hbefore : ∀ m ∈ before, m.isOwn = true := fun m hm =>
      hms m (hsplit ▸ List.mem_append_left _ hm)
    have h := owned_moves id listening limit hbefore
    subst hsplit
    refine ⟨⟨h0, h.claimed.eq_nil h0⟩, fun earlier later t k handle d hearlier ht => ?_,
      fun t g hout => ?_, h.nodup_registrations, htd.calls, fun o hout => ?_⟩
    · exact h.settled hledger h0 hearlier ((sound_fresh id listening limit).moves earlier) ht
    · rw [outcome?_eq_some_iff] at hout ⊢
      exact hfinal t g hout
    · obtain ⟨hcalls, hbare⟩ := htd.ended hout
      have hslots : ∀ k, ((fresh id listening limit).moves
          (before ++ .run c :: after)).registrar.live? k = none := fun k => by
        rw [Registrar.live?, hbare.slots]
        rfl
      refine ⟨hcalls, hbare.slots, Registrar.registrations_eq_nil_iff.2 hslots, hbare.handles,
        fun earlier later hearlier n handle hn => ?_⟩
      have howned : ((fresh id listening limit).moves earlier).Owned :=
        owned_moves id listening limit fun m hm => hms m (hearlier ▸ List.mem_append_left _ hm)
      have hlater : ∀ m ∈ later, m.isOwn = true := fun m hm =>
        hms m (hearlier ▸ List.mem_append_right _ hm)
      have hkeeps := (howned.changes_moves hlater).keeps
      rw [← moves_append, ← hearlier] at hkeeps
      rcases hkeeps.handle n handle hn with hstored | hshut
      · rw [hbare.handles] at hstored
        cases hstored
      · exact List.contains_iff_mem.2 hshut

/-- Once a close has begun the registrar is closed. -/
theorem Closing.closed (hclosing : Closing start c past ms) (h : (start.moves ms).Owned) :
    (start.moves ms).registrar.closed = true := by
  cases hclosing with
  | waits hc hsole hledger => exact h.sound.fits c _ hc
  | takesBack before after hms hlen h0 hledger htd hfinal => exact (htd.quiet h).closed

theorem called_moves (id : String) (listening : Bool) (limit : Option Nat)
    (hms : ∀ m ∈ ms, m.isOwn = true) : ((fresh id listening limit).moves ms).Called := by
  induction ms using List.reverseRecOn with
  | nil => exact called_fresh id listening limit
  | append_singleton ms m ih =>
    have hms' : ∀ m ∈ ms, m.isOwn = true := fun m' hm' => hms m' (List.mem_append_left _ hm')
    rw [moves_concat]
    exact (ih hms').move (owned_moves id listening limit hms') (hms m (by simp))

/-- **A close goes on** as long as its publisher moves. -/
theorem closing_moves (id : String) (listening : Bool) (limit : Option Nat)
    (hms : ∀ m ∈ past ++ .run c :: future, m.isOwn = true)
    (hready : c ∈ ((fresh id listening limit).moves past).ready)
    (hask : ((fresh id listening limit).moves past).stage? c =
      some (.asked (.close .unpublishing)))
    (hopen : ((fresh id listening limit).moves past).registrar.closed = false) :
    Closing (fresh id listening limit) c past (past ++ .run c :: future) := by
  induction future using List.reverseRecOn with
  | nil =>
    have hpast : ∀ m ∈ past, m.isOwn = true := fun m hm => hms m (List.mem_append_left _ hm)
    exact (owned_moves id listening limit hpast).closing_run (called_moves id listening limit hpast)
      (ledger_of_open id listening limit hpast hopen) hready hask hopen
  | append_singleton future m ih =>
    have hsplit : past ++ .run c :: (future ++ [m]) = (past ++ .run c :: future) ++ [m] := by simp
    rw [hsplit] at hms ⊢
    have hms' : ∀ m ∈ past ++ .run c :: future, m.isOwn = true := fun m' hm' =>
      hms m' (List.mem_append_left _ hm')
    have hclosing := ih hms'
    have h := owned_moves id listening limit hms'
    exact hclosing.move h (called_moves id listening limit hms') (hclosing.closed h) (by simp)
      (hms m (by simp))

/-- **Closing takes everything back.** A run of a publisher's own callers is split at the turn of a
close that finds the registrar open. From then on whoever comes to reserve is refused; and the close
waits still, or it has begun in some turn to take back what was live. -/
theorem teardown_complete (id : String) (listening : Bool) (limit : Option Nat)
    (past future : List Move) (c : Nat) (hpast : ∀ m ∈ past, m.isOwn = true)
    (hfuture : ∀ m ∈ future, m.isOwn = true)
    (hready : c ∈ ((fresh id listening limit).moves past).ready)
    (hask : ((fresh id listening limit).moves past).stage? c =
      some (.asked (.close .unpublishing)))
    (hopen : ((fresh id listening limit).moves past).registrar.closed = false) :
    ((fresh id listening limit).moves (past ++ .run c :: future)).RefusesAll ∧
      (((fresh id listening limit).moves (past ++ .run c :: future)).stage? c =
          some (.waiting .unpublishing) ∨
        ∃ before after, past ++ .run c :: future = before ++ .run c :: after ∧
          past.length ≤ before.length ∧ TakesBack (fresh id listening limit) c before after) := by
  have hms : ∀ m ∈ past ++ .run c :: future, m.isOwn = true := by
    intro m hm
    rcases List.mem_append.1 hm with hm | hm
    · exact hpast m hm
    · rcases List.mem_cons.1 hm with rfl | hm
      · rfl
      · exact hfuture m hm
  have h := owned_moves id listening limit hms
  have hclosing := closing_moves id listening limit hms hready hask hopen
  exact ⟨h.refusesAll (hclosing.closed h), hclosing.takesBack_or_waits id listening limit hms⟩

/-- A schema is published, and the publisher is asked to close. -/
def publishedAndClosed : List Move :=
  [.ask (.publish { name := "r" } { schema := ⟨"s", "{}"⟩ }), .run 0,
    .answerPublish 0 (.record ⟨"1", "s", none, {}⟩), .ask (.close .unpublishing)]

theorem teardown_complete_publishedAndClosed :
    ((fresh "id" true none).moves
        (publishedAndClosed ++ .run 1 :: [.run 1, .answerUnpublish 2 (.ok ())])).outcome? 1 ≠ none ∧
      ((fresh "id" true none).moves
        (publishedAndClosed ++ .run 1 :: [.run 1, .answerUnpublish 2 (.ok ())])).RefusesAll ∧
      (((fresh "id" true none).moves
          (publishedAndClosed ++ .run 1 :: [.run 1, .answerUnpublish 2 (.ok ())])).stage? 1 =
          some (.waiting .unpublishing) ∨
        ∃ before after, publishedAndClosed ++ .run 1 :: [.run 1, .answerUnpublish 2 (.ok ())] =
            before ++ .run 1 :: after ∧
          publishedAndClosed.length ≤ before.length ∧
          TakesBack (fresh "id" true none) 1 before after) := by
  have hask : ((fresh "id" true none).moves publishedAndClosed).stage? 1 =
      some (.asked (.close .unpublishing)) := by rfl
  refine ⟨?_, teardown_complete "id" true none publishedAndClosed
    [.run 1, .answerUnpublish 2 (.ok ())] 1 (by decide) (by decide) (by decide +kernel) hask
    (by decide +kernel)⟩
  rw [Ne, ← Option.isNone_iff_eq_none]
  decide +kernel

end SchemaHerald.Publisher
