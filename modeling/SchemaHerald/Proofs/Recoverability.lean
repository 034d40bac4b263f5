import SchemaHerald.Proofs.LaterCloses
import SchemaHerald.Proofs.LonePublishes

/-!
# Which failures may be tried again

A failure that is recoverable came from the registry or from a task that broke off, so its schema had its
key and has given it back (`Circumstances.free_of_recoverable`). A publish that failed so can therefore
succeed when it is repeated, and so can the publish of exactly those schemas of a batch that failed so.

Repeating the whole batch is another matter: a schema of it that was registered stays live, and in a
registrar that is open a batch ends with registrations only if its schemas had different names, none of
which was live (`Regular.free_of_registeredAll`).
-/
namespace SchemaHerald

/-- Whether a publish that came to this may be tried again, as its batch tells of it. -/
def Outcome.recoverable : Outcome → Bool
  | .failed failure => failure.recoverable
  | .broken _ => true
  | _ => false

/-- A schema may be published again, as the parts of a failure tell. -/
def Definition.recoverableIn (parts : List (Part Failure)) (d : Definition) : Bool :=
  parts.any fun part => part.schema == d.name && part.failure.recoverable

theorem Definition.recoverableIn_iff {parts : List (Part Failure)} {d : Definition} :
    d.recoverableIn parts = true ↔
      ∃ part ∈ parts, part.schema = d.name ∧ part.failure.recoverable = true := by
  simp [recoverableIn]

namespace Circumstances

variable {w : Circumstances} {d : Definition}

/-- **What may be tried again had its key free.** -/
theorem free_of_recoverable (h : (w.verdict d).recoverable = true) : w.Free d := by
  unfold verdict at h
  split at h
  · simp [Outcome.recoverable, Failure.recoverable] at h
  · rename_i hname
    split at h
    · simp [Outcome.recoverable, Failure.recoverable] at h
    · rename_i hslot
      exact ⟨Bool.eq_false_iff.2 hname, by simpa [Table.contains] using hslot⟩

/-- A schema whose key is free is registered, or may be tried again. -/
theorem Free.recoverable_or (h : w.Free d) :
    (w.verdict d).recoverable = true ∨ ∃ g, w.verdict d = .registered g := by
  rw [h.verdict]
  cases w.answer d with
  | record record => exact .inr ⟨_, rfl⟩
  | refused cause => exact .inl (by simp [Outcome.recoverable, Failure.recoverable])
  | broken message => exact .inl rfl

end Circumstances

namespace Publisher

open Relation

variable {p q : Publisher} {t c i : Nat} {o : RegistryOptions} {ds : List Definition}
  {d : Definition} {ms : List Move} {failure : Failure} {s : Stage} {k : Key} {g : Registration}

/-! ## In an open registrar -/

/-- **A step in an open registrar** that does not close it leaves all registrations alone. -/
theorem Sound.open_step (h : p.Sound) (hopen : p.registrar.closed = false)
    (hno : ∀ td, p.stage? t ≠ some (.asked (.close td))) (hs : Step t p q) :
    q.registrar.closed = false ∧ ∀ k, q.registrar.live? k = p.registrar.live? k := by
  have ended : ∀ {s : Stage} (out : Outcome), p.stage? t = some s →
      (p.finish t out).registrar = p.registrar := fun out ht =>
    h.registrar_finish_apart ht rfl (fun _ _ _ hc => h.not_closing hopen hc trivial) out
  cases hs with
  | refuse o d failure ht | refuseBatch o ds outcome ht ho =>
    rw [ended _ ht]
    exact ⟨hopen, fun _ => rfl⟩
  | reserve o o' d k' r ht ho hd hr =>
    refine ⟨?_, fun k => ?_⟩
    · show (r.handleFor o').2.closed = false
      rw [Registrar.closed_handleFor, (Registrar.reserve_eq_ok_iff.1 hr).2.2.2]
      exact hopen
    · show (r.handleFor o').2.live? k = p.registrar.live? k
      rw [Registrar.live?_handleFor]
      exact Registrar.live?_reserve hr
  | closeAgain td ht hc | close td ht hc => exact absurd ht (hno td)
  | release td outcome ht h0 ho => exact absurd trivial (h.not_closing hopen ht)
  | _ => exact ⟨hopen, fun _ => rfl⟩

theorem Sound.open_steps (h : p.Sound) (hopen : p.registrar.closed = false)
    (hno : ∀ td, p.stage? t ≠ some (.asked (.close td))) (hs : ReflTransGen (Step t) p q) :
    q.registrar.closed = false ∧ (∀ td, q.stage? t ≠ some (.asked (.close td))) ∧
      ∀ k, q.registrar.live? k = p.registrar.live? k := by
  induction hs with
  | refl => exact ⟨hopen, hno, fun _ => rfl⟩
  | tail hsteps hstep ih =>
    obtain ⟨hopen', hno', hlive⟩ := ih
    obtain ⟨hopen'', hlive'⟩ := (h.steps hsteps).open_step hopen' hno' hstep
    exact ⟨hopen'', fun td ht => hno' td ((h.steps hsteps).asked_close_step hstep ht),
      fun k => (hlive' k).trans (hlive k)⟩

/-- **The tasks of a batch contend** for their keys with what was live before, in the registrar `r`, and
with each other, whatever their names are. -/
structure Contends (r : Registrar) (o : RegistryOptions) (ds : List Definition) (c : Nat)
    (p : Publisher) : Prop where
  regular : p.Regular
  isOpen : p.registrar.closed = false
  gathers : Gathers p c o.name ((List.range' (c + 1) ds.length).zip (ds.map (·.name)))
  publishes : ∀ i d, ds[i]? = some d →
    ∃ s, p.stage? (c + 1 + i) = some s ∧ s.Publishes o d
  /-- What was live stays live. -/
  stays : ∀ k g, r.live? k = some g → p.registrar.live? k = some g
  /-- A registration of the batch is live, and nothing was live in its place. -/
  holds : ∀ i d g, ds[i]? = some d → p.stage? (c + 1 + i) = some (.ended (.registered g)) →
    d.name ≠ "" ∧ r.live? (Key.canonical o.name d.schema.name) = none ∧
      p.registrar.live? (Key.canonical o.name d.schema.name) = some g

variable {r : Registrar}

/-- Where a task of a batch that contends may stand. -/
theorem Contends.stage (h : Contends r o ds c p) (hfirst : c ≤ t) (hlast : t ≤ c + ds.length) :
    ∃ s, p.stage? t = some s ∧ (∀ td, s ≠ .asked (.close td)) ∧
      (s.IsCalling → ∃ i d k handle d', t = c + 1 + i ∧ ds[i]? = some d ∧
        s = .publishing k handle d' ∧ k = Key.canonical o.name d.schema.name) := by
  rcases eq_or_mem_range' hfirst hlast with rfl | ⟨i, d, rfl, hd, -⟩
  · cases h.gathers with
    | underWay b hc hr hm => exact ⟨_, hc, by simp, fun hcall => hcall.elim⟩
    | hasEnded b hc hr hm hb hkept => exact ⟨_, hc, by simp, fun hcall => hcall.elim⟩
  · obtain ⟨s, hs, hpub⟩ := h.publishes i d hd
    refine ⟨s, hs, fun td he => ?_, fun hcall => ?_⟩
    · rw [he] at hpub
      exact hpub
    · cases s with
      | publishing k handle d' => exact ⟨i, d, k, handle, d', rfl, hd, rfl, hpub.1⟩
      | unpublishing | tryingPublish | tryingUnpublish => exact hpub.elim
      | _ => exact hcall.elim

/-- What a move leaves of a batch that contends, if what is live stays live. -/
theorem Contends.of_move (h : Contends r o ds c p) (m : Move)
    (hopen : (p.move m).registrar.closed = false)
    (hstays : ∀ k g, p.registrar.live? k = some g → (p.move m).registrar.live? k = some g)
    (hnew : ∀ i d g, ds[i]? = some d → (p.move m).stage? (c + 1 + i) = some (.ended (.registered g)) →
      p.stage? (c + 1 + i) = some (.ended (.registered g)) ∨
        d.name ≠ "" ∧ r.live? (Key.canonical o.name d.schema.name) = none ∧
          (p.move m).registrar.live? (Key.canonical o.name d.schema.name) = some g) :
    Contends r o ds c (p.move m) := by
  refine ⟨h.regular.move m, hopen, h.gathers.move h.regular.sound h.regular.kin m,
    fun i d hd => ?_, fun k g hk => hstays k g (h.stays k g hk), fun i d g hd hs => ?_⟩
  · obtain ⟨s, hs, hpub⟩ := h.publishes i d hd
    obtain ⟨s', hs', hl⟩ := h.regular.sound.goes_move m _ s hs
    exact ⟨s', hs', hpub.leads hl⟩
  · rcases hnew i d g hd hs with hold | hnew
    · obtain ⟨hname, hnone, hlive⟩ := h.holds i d g hd hold
      exact ⟨hname, hnone, hstays _ g hlive⟩
    · exact hnew

/-- **A move of one of its tasks, with any answer.** -/
theorem Contends.move (h : Contends r o ds c p) {m : Move} (hm : m.Within c (c + ds.length)) :
    Contends r o ds c (p.move m) := by
  have hsound := h.regular.sound
  cases hm with
  | run t hfirst hlast =>
    obtain ⟨s, hs, hclose, -⟩ := h.stage hfirst hlast
    have hno : ∀ td, p.stage? t ≠ some (.asked (.close td)) := fun td he =>
      hclose td (Option.some.inj (hs.symm.trans he))
    obtain ⟨hopen, -, hlive⟩ := hsound.open_steps h.isOpen hno (run_steps p t)
    refine h.of_move (.run t) hopen (fun k g hk => (hlive k).trans hk) fun i d g _ hended => .inl ?_
    exact hsound.registered_steps (run_steps p t) hended
  | answer t a hfirst hlast =>
    obtain ⟨s, hs, -, hcalling⟩ := h.stage hfirst hlast
    rcases answerPublish_reply p t a with he | hreply
    · have hsame : p.move (.answerPublish t a) = p := he
      rwa [hsame]
    · obtain ⟨i, d, k, handle, d', rfl, hd, rfl, hk⟩ := hcalling (hreply.isCalling hs)
      refine h.of_move (.answerPublish _ a) ((hsound.closed_reply hreply).trans h.isOpen)
        (fun k' g' hk' => ?_) fun j d₁ g' hd₁ hended => ?_
      · rcases hsound.live?_reply hreply hk' with hlive | ⟨g₁, ht, -⟩ | ⟨c', drain, o', hc', -⟩
        · exact hlive
        · cases hs.symm.trans ht
        · exact absurd trivial (hsound.not_closing h.isOpen hc')
      · rcases hsound.registered_reply hreply hended with hold | ⟨hu, k₁, handle₁, d₂, record, ht, hg, hr⟩
        · exact .inl hold
        · right
          obtain rfl : j = i := by omega
          cases hd.symm.trans hd₁
          cases hs.symm.trans ht
          -- its key was reserved, so that nothing had been live under it
          have hreserved := hsound.reserved hs
          have hcanonical : k.IsCanonical := (hsound.fits _ _ hs).1
          refine ⟨fun hblank => hcanonical.schema_ne ?_, ?_, ?_⟩
          · rw [hk]
            exact hblank
          · cases hlive : r.live? (Key.canonical o.name d.schema.name) with
            | none => rfl
            | some g₁ =>
              have hslot := Registrar.live?_eq_some_iff.1 (h.stays _ g₁ hlive)
              rw [← hk, hreserved] at hslot
              cases hslot
          · show (p.answerPublish _ a).registrar.live? _ = some g'
            rw [hr, Registrar.live?_register, if_pos hk.symm, hg]

theorem Contends.moves (h : Contends r o ds c p) (hms : ∀ m ∈ ms, m.Within c (c + ds.length)) :
    Contends r o ds c (p.moves ms) := by
  induction ms generalizing p with
  | nil => exact h
  | cons m ms ih =>
    exact ih (h.move (hms m List.mem_cons_self)) fun m' hm' => hms m' (List.mem_cons_of_mem m hm')

/-- **A batch that has been asked for** goes on waiting, or begins to contend. -/
theorem Awaited.move {w : Circumstances} (h : Awaited w o ds c p) (hne : ds ≠ [])
    (ho : o.canonical? = .ok w.options) {m : Move} (hm : m.Within c (c + ds.length)) :
    Awaited w o ds c (p.move m) ∨ Contends w.registrar w.options ds c (p.move m) := by
  have hlength := h.length
  by_cases hcounts : m.Counts p
  · cases hm with
    | run t hfirst hlast =>
      by_cases htc : t = c
      · right
        subst htc
        obtain ⟨hbegun, -⟩ := h.begin hne ho (RegistryOptions.canonical?_again ho)
        have hregistrar : (p.run t).registrar = w.registrar := by
          rw [run_publishAll_eq hcounts h.asked hne ho h.limit]
          exact h.registrar
        refine ⟨hbegun.regular, hbegun.tracks.isOpen, hbegun.gathers, hbegun.publishes,
          fun k g hk => ?_, fun i d g _ hs => ?_⟩
        · show (p.run t).registrar.live? k = some g
          rw [hregistrar]
          exact hk
        · -- nobody has been registered for the batch, since its tasks are new
          have hold := h.regular.sound.registered_steps (run_steps p t) hs
          have hlt := lt_length_of_stage? hold
          omega
      · exact .inl (h.turn htc hfirst hcounts).1
    | answer t a hfirst hlast =>
      obtain ⟨k, handle, d, hs⟩ := hcounts
      have hlt := lt_length_of_stage? hs
      obtain rfl : t = c := by omega
      cases h.asked.symm.trans hs
  · rw [(Stands.awaited h).move_eq hm hcounts]
    exact .inl h

theorem Awaited.moves {w : Circumstances} (h : Awaited w o ds c p) (hne : ds ≠ [])
    (ho : o.canonical? = .ok w.options) (hms : ∀ m ∈ ms, m.Within c (c + ds.length)) :
    Awaited w o ds c (p.moves ms) ∨ Contends w.registrar w.options ds c (p.moves ms) := by
  induction ms generalizing p with
  | nil => exact .inl h
  | cons m ms ih =>
    have hrest := fun m' hm' => hms m' (List.mem_cons_of_mem m hm')
    rcases h.move hne ho (hms m List.mem_cons_self) with hawaited | hcontends
    · exact ih hawaited hrest
    · exact .inr (hcontends.moves hrest)

/-- **A batch that ended with registrations** has one for each schema, so that their names were
different, and none of them was live. -/
theorem Contends.of_registeredAll (h : Contends r o ds c p) (htrim : Text.trim o.name = o.name)
    {gs : List Registration} (hout : p.outcome? c = some (.registeredAll gs)) :
    (ds.map (·.name)).Nodup ∧
      ∀ d ∈ ds, d.name ≠ "" ∧ r.live? (Key.canonical o.name d.schema.name) = none := by
  rw [outcome?_eq_some_iff] at hout
  have registered : ∀ i d, ds[i]? = some d →
      ∃ g, p.stage? (c + 1 + i) = some (.ended (.registered g)) := by
    intro i d hd
    cases h.gathers with
    | underWay b hc hr hm => cases hc.symm.trans hout
    | hasEnded b hc hr hm hb hkept =>
      have haccount := hkept.account h.regular.numbered hb hr htrim hm h.publishes
      have hb' : b.outcome = .registeredAll gs :=
        Stage.ended.inj (Option.some.inj (hc.symm.trans hout))
      rw [hb'] at haccount
      rcases haccount.outcome with ⟨hnone, -⟩ | ⟨-, he⟩
      · obtain ⟨e, haccounts, -, hparts⟩ := haccount.exists_entry hd
        cases haccounts with
        | committed g ho hk => exact ⟨g, outcome?_eq_some_iff.1 ho⟩
        | failed | lost =>
          have hmem := hparts _ rfl
          rw [hnone] at hmem
          cases hmem
      · cases he
  refine ⟨List.nodup_iff_getElem?_ne_getElem?.2 fun i j hij hj he => ?_, fun d hd => ?_⟩
  · -- two schemas of one name would have one registration
    rw [List.length_map] at hj
    have hi : i < ds.length := by omega
    rw [List.getElem?_map, List.getElem?_map, List.getElem?_eq_getElem hi,
      List.getElem?_eq_getElem hj] at he
    have hname : ds[i].name = ds[j].name := Option.some.inj he
    obtain ⟨g, hg⟩ := registered i _ (List.getElem?_eq_getElem hi)
    obtain ⟨g', hg'⟩ := registered j _ (List.getElem?_eq_getElem hj)
    obtain ⟨-, -, hlive⟩ := h.holds i _ g (List.getElem?_eq_getElem hi) hg
    obtain ⟨-, -, hlive'⟩ := h.holds j _ g' (List.getElem?_eq_getElem hj) hg'
    have hkey : Key.canonical o.name ds[i].schema.name = Key.canonical o.name ds[j].schema.name :=
      congrArg (Key.mk (Text.trim o.name)) hname
    rw [hkey, hlive'] at hlive
    cases hlive
    have hsame := h.regular.numbered.inj _ _ _ _ hg hg' rfl
    omega
  · obtain ⟨i, hi⟩ := List.mem_iff_getElem?.1 hd
    obtain ⟨g, hg⟩ := registered i d hi
    obtain ⟨hname, hnone, -⟩ := h.holds i d g hi hg
    exact ⟨hname, hnone⟩

/-- **What a batch can be registered as a whole for**: in an open registrar its schemas have different
names, none of which is blank or live, if it ends with registrations. -/
theorem Regular.free_of_registeredAll (h : p.Regular) (hopen : p.registrar.closed = false)
    (hms : ∀ m ∈ ms, m.Within p.tasks.length (p.tasks.length + ds.length)) {gs : List Registration}
    (hout : ((p.ask (.publishAll o ds)).moves ms).outcome? p.tasks.length =
      some (.registeredAll gs)) :
    (ds.map (·.name)).Nodup ∧
      ∀ d ∈ ds, d.name ≠ "" ∧ p.registrar.find? o.name d.schema.name = none := by
  rcases (h.sound.ask _).begins (stage?_ask_new p (.publishAll o ds)) hout with
    ⟨hne, hname, hlimit⟩ | hrefused
  · have hawaited : Awaited (p.circumstances o fun _ _ => .record ⟨"", "", none, {}⟩) o ds
        p.tasks.length (p.ask (.publishAll o ds)) := h.awaited hopen rfl rfl hlimit
    rcases hawaited.moves hne (RegistryOptions.canonical?_eq_ok_iff.2 ⟨hname, rfl⟩) hms with
      hstill | hcontends
    · rw [outcome?_eq_some_iff, hstill.asked] at hout
      cases hout
    · obtain ⟨hdifferent, hfree⟩ := hcontends.of_registeredAll (Text.trim_trim o.name) hout
      refine ⟨hdifferent, fun d hd => ?_⟩
      obtain ⟨hname, hnone⟩ := hfree d hd
      have hkey : Key.canonical (Text.trim o.name) d.schema.name =
          Key.canonical o.name d.schema.name := by simp [Key.canonical]
      refine ⟨hname, ?_⟩
      show p.registrar.live? (Key.canonical o.name d.schema.name) = none
      rw [← hkey]
      exact hnone
  · cases hrefused

/-! ## Calls that failed -/

/-- **A call has failed with what is recoverable.** It was made in `p`, since then only its tasks have had
turns and answers, and the registrar is still open. -/
structure FailedCall (p : Publisher) (request : Request) (n : Nat) (failure : Failure)
    (q : Publisher) : Prop where
  called : ∃ ms : List Move, (∀ m ∈ ms, m.Within p.tasks.length (p.tasks.length + n)) ∧
    q = (p.ask request).moves ms
  outcome : q.outcome? p.tasks.length = some (.failed failure)
  recoverable : failure.recoverable = true
  isOpen : q.registrar.closed = false

/-- A registrar that is open was open before. -/
theorem Sound.open_of_within (h : p.Sound) {first last : Nat}
    (hms : ∀ m ∈ ms, m.Within first last) (hopen : (p.moves ms).registrar.closed = false) :
    p.registrar.closed = false := by
  induction ms generalizing p with
  | nil => exact hopen
  | cons m ms ih =>
    have hown : m.isDirect = false := by cases hms m List.mem_cons_self <;> rfl
    have hmoved : (p.move m).registrar.closed = false :=
      ih (h.move m) (fun m' hm' => hms m' (List.mem_cons_of_mem m hm')) hopen
    exact (h.changes_move hown).keeps.open_of_open hmoved

theorem FailedCall.wasOpen {request : Request} {n : Nat} (h : FailedCall p request n failure q)
    (hp : p.Regular) : p.registrar.closed = false := by
  obtain ⟨ms, hms, rfl⟩ := h.called
  exact (hp.sound.ask _).open_of_within hms h.isOpen

theorem FailedCall.regular {request : Request} {n : Nat} (h : FailedCall p request n failure q)
    (hp : p.Regular) : q.Regular := by
  obtain ⟨ms, -, rfl⟩ := h.called
  exact (hp.move (.ask _)).moves ms

/-- A publish to a registry without a name is refused at once. -/
theorem beginPublish_of_blank (hname : Text.trim o.name = "") : p.beginPublish t o d =
    p.finish t (.failed (.invalidArgument "registry" "registry name must not be empty")) := by
  unfold Publisher.beginPublish
  rw [RegistryOptions.canonical?_of_blank hname]

/-- So it ends in no other way. -/
theorem Sound.outcome_of_blank (h : p.Sound) (hname : Text.trim o.name = "")
    (hc : p.stage? c = some (.asked (.publish o d))) (hparent : p.parent? c = none)
    (hms : ∀ m ∈ ms, m.Within c c) {out : Outcome} (hout : (p.moves ms).outcome? c = some out) :
    ∃ field message, out = .failed (.invalidArgument field message) := by
  induction ms with
  | nil =>
    rw [outcome?_eq_some_iff] at hout
    cases hc.symm.trans hout
  | cons m ms ih =>
    have same : p.move m = p → ∃ field message, out = .failed (.invalidArgument field message) := by
      intro he
      refine ih (fun m' hm' => hms m' (List.mem_cons_of_mem m hm')) ?_
      rwa [Publisher.moves, List.foldl_cons, he] at hout
    cases hms m List.mem_cons_self with
    | run t hfirst hlast =>
      obtain rfl : t = c := Nat.le_antisymm hlast hfirst
      by_cases hready : t ∈ p.ready
      · have hended : (p.run t).outcome? t =
            some (.failed (.invalidArgument "registry" "registry name must not be empty")) := by
          rw [run_publish hready hc hparent, beginPublish_of_blank hname,
            finish_of_orphan (p := { p with ready := p.ready.erase t }) hparent, outcome?_eq_some_iff]
          exact stage?_setStage_self (p := { p with ready := p.ready.erase t }) hc
        exact ⟨_, _, Option.some.inj (hout.symm.trans ((h.move (.run t)).outcome?_moves ms hended))⟩
      · exact same (run_of_not_ready hready)
    | answer t a hfirst hlast =>
      obtain rfl : t = c := Nat.le_antisymm hlast hfirst
      exact same (answerPublish_of_not_calling hc id a)

/-- **A publish that failed with what is recoverable** succeeds when it is repeated. -/
theorem FailedCall.repeat_publish (h : FailedCall p (.publish o d) 0 failure q) (hp : p.Regular) :
    Succeeds q (.publish o d) 0 fun out _ => ∃ g, out = .registered g := by
  obtain ⟨ms, hms, rfl⟩ := h.called
  have hopen := h.wasOpen hp
  have hrecoverable := h.recoverable
  by_cases hname : Text.trim o.name = ""
  · have hparent : (p.ask (.publish o d)).parent? p.tasks.length = none := by
      rw [parent?_ask]
      simp [parent?]
    obtain ⟨field, message, he⟩ := (hp.sound.ask _).outcome_of_blank hname
      (stage?_ask_new p (.publish o d)) hparent hms h.outcome
    cases he
    simp [Failure.recoverable] at hrecoverable
  · obtain ⟨answers, halone, -, -⟩ := hp.alone_any (d := d) hopen hname hms
    have hverdict : Outcome.failed failure = (p.circumstances o answers).verdict d :=
      halone.tracks.outcome (i := 0) rfl h.outcome
    have hfree : (p.circumstances o answers).Free d := by
      refine Circumstances.free_of_recoverable ?_
      rw [← hverdict]
      exact hrecoverable
    -- the key is as it was before the call
    have hslot := halone.tracks.slot 0 d rfl
    rw [Nat.add_zero, outcome?_eq_some_iff.1 h.outcome, key_circumstances] at hslot
    obtain ⟨hnamed, -⟩ := free_circumstances_iff.1 hfree
    exact (h.regular hp).succeeds_publish h.isOpen hname hnamed
      (hslot.trans hfree.slot)

/-- Which part of a failure may be tried again. -/
theorem Accounts.recoverable {registry schema : String} {part : Part Failure}
    (h : p.Accounts registry schema t (.inr part)) :
    ∃ out, p.outcome? t = some out ∧ out.recoverable = part.failure.recoverable ∧
      out.bare = out ∧ part.schema = schema := by
  cases h with
  | failed failure ho => exact ⟨_, ho, rfl, rfl, rfl⟩
  | lost message ho => exact ⟨_, ho, by simp [Outcome.recoverable, Failure.recoverable], rfl, rfl⟩

/-- A batch that failed with what is recoverable had begun, and gives account of its schemas. -/
theorem FailedCall.account (h : FailedCall p (.publishAll o ds) ds.length failure q) (hp : p.Regular)
    (hnames : (ds.map (·.name)).Nodup) :
    (Text.trim o.name ≠ "" ∧ ∀ n, q.limit = some n → n ≤ Batch.mostPermits) ∧
      ∃ answers gs parts, failure = .partialPublish (Text.trim o.name) ds.length parts ∧
        Tracks (p.circumstances o answers) ds (p.tasks.length + 1) q ∧
        q.BatchAccount p.tasks.length (p.tasks.length + 1) (Text.trim o.name) ds gs parts
          (.failed failure) := by
  have hopen := h.wasOpen hp
  have hrecoverable := h.recoverable
  obtain ⟨ms, hms, rfl⟩ := h.called
  rcases hp.account_of_failed hopen hnames hms h.outcome with rfl | ⟨field, message, rfl⟩ |
    ⟨⟨hname, hlimit⟩, answers, gs, parts, he, -, htracks, haccount⟩
  · simp [Failure.recoverable] at hrecoverable
  · simp [Failure.recoverable] at hrecoverable
  · exact ⟨⟨hname, fun n hn => hlimit n ((limit_moves (p.ask _) ms).symm.trans hn)⟩,
      answers, gs, parts, he, htracks, haccount⟩

/-- **What a batch that failed tells of its schemas**: those that may be tried again are free, and there is
one at least. -/
theorem FailedCall.free_again (h : FailedCall p (.publishAll o ds) ds.length failure q)
    (hp : p.Regular) (hnames : (ds.map (·.name)).Nodup) :
    (Text.trim o.name ≠ "" ∧ ∀ n, q.limit = some n → n ≤ Batch.mostPermits) ∧
      (∃ d ∈ ds, d.recoverableIn failure.parts = true) ∧
      ∀ d ∈ ds, d.recoverableIn failure.parts = true →
        d.name ≠ "" ∧ q.registrar.slots.get? (Key.canonical o.name d.schema.name) = none := by
  obtain ⟨hacceptable, answers, gs, parts, rfl, htracks, haccount⟩ := h.account hp hnames
  refine ⟨hacceptable, ?_, fun d hd hagain => ?_⟩
  · have hrecoverable := h.recoverable
    rw [Failure.recoverable, Failure.anyRecoverable_eq_any, List.any_eq_true] at hrecoverable
    obtain ⟨part, hpart, hone⟩ := hrecoverable
    obtain ⟨i, d, hd, haccounts⟩ := haccount.mem_parts_iff.1 hpart
    obtain ⟨-, -, -, -, hschema⟩ := haccounts.recoverable
    exact ⟨d, List.mem_of_getElem? hd, Definition.recoverableIn_iff.2 ⟨part, hpart, hschema, hone⟩⟩
  · obtain ⟨part, hpart, hschema, hone⟩ := Definition.recoverableIn_iff.1 hagain
    obtain ⟨i, hi⟩ := List.mem_iff_getElem?.1 hd
    have haccounts := haccount.accounts_of_part hnames hi hpart hschema
    obtain ⟨out, hout, hsame, hbare, -⟩ := haccounts.recoverable
    have hfree : (p.circumstances o answers).Free d := by
      refine Circumstances.free_of_recoverable ?_
      rw [← htracks.outcome hi hout, hbare, hsame]
      exact hone
    have hslot := htracks.slot_of_failed hi haccounts
    rw [key_circumstances] at hslot
    obtain ⟨hnamed, hnone⟩ := free_circumstances_iff.1 hfree
    exact ⟨hnamed, hslot.trans hnone⟩

/-- **A batch of exactly the schemas that may be tried again** succeeds. -/
theorem FailedCall.retry (h : FailedCall p (.publishAll o ds) ds.length failure q) (hp : p.Regular)
    (hnames : (ds.map (·.name)).Nodup) {again : List Definition}
    (hagain : again.Perm (ds.filter (·.recoverableIn failure.parts))) :
    Succeeds q (.publishAll o again) again.length fun out _ => ∃ gs, out = .registeredAll gs := by
  obtain ⟨⟨hname, hlimit⟩, hsome, hfree⟩ := h.free_again hp hnames
  have hchoice := (h.regular hp).succeeds_choice h.isOpen hname hlimit hnames hsome hfree hagain
  exact hchoice.mono fun _ _ ⟨gs, hgs, _⟩ => ⟨gs, hgs⟩

/-- **What is not live after a batch that failed** may be tried again, if it has a name. -/
theorem FailedCall.recoverableIn_of_find? (h : FailedCall p (.publishAll o ds) ds.length failure q)
    (hp : p.Regular) (hidle : p.registrar.inFlight = 0) (hnames : (ds.map (·.name)).Nodup)
    (hd : d ∈ ds) (hnamed : d.name ≠ "") (hfind : q.registrar.find? o.name d.schema.name = none) :
    d.recoverableIn failure.parts = true := by
  obtain ⟨i, hi⟩ := List.mem_iff_getElem?.1 hd
  obtain ⟨-, answers, gs, parts, rfl, htracks, haccount⟩ := h.account hp hnames
  obtain ⟨e, haccounts, -, hparts⟩ := haccount.exists_entry hi
  cases e with
  | inl g =>
    -- what was registered is live
    exfalso
    cases haccounts with
    | committed g ho hk =>
      have hslot := htracks.slot i d hi
      rw [outcome?_eq_some_iff.1 ho, key_circumstances] at hslot
      rw [Registrar.find?, hslot] at hfind
      cases hfind
  | inr part =>
    obtain ⟨out, hout, hsame, hbare, hschema⟩ := haccounts.recoverable
    have hslot := htracks.slot_of_failed hi haccounts
    rw [key_circumstances] at hslot
    have hfind' : p.registrar.find? o.name d.schema.name = none := by
      rw [Registrar.find?, hslot] at hfind
      exact hfind
    have hfree : (p.circumstances o answers).Free d :=
      free_circumstances_iff.2 ⟨hnamed, hp.sound.free_of_idle hidle hfind'⟩
    have hverdict := htracks.outcome hi hout
    rw [hbare] at hverdict
    refine Definition.recoverableIn_iff.2 ⟨part, hparts part rfl, hschema, ?_⟩
    rcases hfree.recoverable_or with hone | ⟨g, hg⟩
    · rw [← hsame, hverdict]
      exact hone
    · rw [hg] at hverdict
      subst hverdict
      cases haccounts with
      | failed failure ho => cases ho.symm.trans hout
      | lost message ho => cases ho.symm.trans hout

/-- **When the whole batch can be repeated.** -/
theorem FailedCall.repeatable_iff (h : FailedCall p (.publishAll o ds) ds.length failure q)
    (hp : p.Regular) (hidle : p.registrar.inFlight = 0) :
    (∃ (later : List Move) (gs : List Registration),
      (∀ m ∈ later, m.Within q.tasks.length (q.tasks.length + ds.length)) ∧
        ((q.ask (.publishAll o ds)).moves later).outcome? q.tasks.length =
          some (.registeredAll gs)) ↔
      (ds.map (·.name)).Nodup ∧ ∀ d ∈ ds, d.recoverableIn failure.parts = true := by
  constructor
  · rintro ⟨later, gs, hlater, hout⟩
    -- whatever is live would be refused the second time
    obtain ⟨hnames, hfree⟩ := (h.regular hp).free_of_registeredAll h.isOpen hlater hout
    refine ⟨hnames, fun d hd => ?_⟩
    obtain ⟨hnamed, hfind⟩ := hfree d hd
    exact h.recoverableIn_of_find? hp hidle hnames hd hnamed hfind
  · rintro ⟨hnames, hall⟩
    have hsame : ds.filter (·.recoverableIn failure.parts) = ds := List.filter_eq_self.2 hall
    have hagain : ds.Perm (ds.filter (·.recoverableIn failure.parts)) := by rw [hsame]
    obtain ⟨later, hlater, out, hout, gs, rfl⟩ := (h.retry hp hnames hagain).exists_end
    exact ⟨later, gs, hlater, hout⟩

/-- **A failure that is recoverable may be tried again.** A publisher has done anything before and has
nothing in flight. A publish that failed with what is recoverable succeeds when it is repeated while
nothing else happens and the registrar is open, at a registry that accepts. Of a batch, the schemas that
failed so succeed when they are published again, if its schemas have different names. The whole batch can
be repeated with success if its schemas have different names and all of them failed so, and otherwise
cannot, whatever the registry answers. -/
theorem recoverable_calls (id : String) (listening : Bool) (limit : Option Nat) (past : List Move)
    (p : Publisher) (hp : p = (fresh id listening limit).moves past)
    (hidle : p.registrar.inFlight = 0) (o : RegistryOptions) :
    (∀ (d : Definition) (failure : Failure) (q : Publisher),
      FailedCall p (.publish o d) 0 failure q →
        Succeeds q (.publish o d) 0 fun out _ => ∃ g, out = .registered g) ∧
    ∀ (ds : List Definition) (failure : Failure) (q : Publisher),
      FailedCall p (.publishAll o ds) ds.length failure q →
        ((∃ (later : List Move) (gs : List Registration),
          (∀ m ∈ later, m.Within q.tasks.length (q.tasks.length + ds.length)) ∧
            ((q.ask (.publishAll o ds)).moves later).outcome? q.tasks.length =
              some (.registeredAll gs)) ↔
          (ds.map (·.name)).Nodup ∧ ∀ d ∈ ds, d.recoverableIn failure.parts = true) ∧
        ((ds.map (·.name)).Nodup →
          ∀ again : List Definition, again.Perm (ds.filter (·.recoverableIn failure.parts)) →
            Succeeds q (.publishAll o again) again.length fun out _ =>
              ∃ gs, out = .registeredAll gs) := by
  have hregular : p.Regular := hp ▸ regular_moves id listening limit past
  exact ⟨fun d failure q h => h.repeat_publish hregular, fun ds failure q h =>
    ⟨h.repeatable_iff hregular hidle, fun hnames again hagain => h.retry hregular hnames hagain⟩⟩

/-- Two schemas. -/
def twoSchemas : List Definition := [{ schema := ⟨"s", "1"⟩ }, { schema := ⟨"t", "2"⟩ }]

/-- The first one is noted, and the other is refused. -/
def firstNoted : List Move :=
  [.run 0, .run 1, .run 2, .answerPublish 1 (.record ⟨"1", "s", none, {}⟩),
    .answerPublish 2 (.refused ⟨"unavailable", []⟩), .run 0]

/-- The publisher after a batch of both. -/
def halfPublished : Publisher :=
  ((fresh "id" true none).ask (.publishAll { name := "r" } twoSchemas)).moves firstNoted

/-- What the batch tells of them. -/
def secondUnavailable : Failure :=
  .partialPublish "r" 2 [⟨"t", "r", .remote "r" "t" ⟨"unavailable", []⟩⟩]

theorem failedCall_firstNoted : FailedCall (fresh "id" true none)
    (.publishAll { name := "r" } twoSchemas) 2 secondUnavailable halfPublished := by
  refine ⟨⟨firstNoted, ?_, rfl⟩, rfl, ?_, rfl⟩
  · simp only [firstNoted, List.forall_mem_cons]
    refine ⟨.run 0 ?_ ?_, .run 1 ?_ ?_, .run 2 ?_ ?_, .answer 1 _ ?_ ?_, .answer 2 _ ?_ ?_,
      .run 0 ?_ ?_, fun m hm => absurd hm List.not_mem_nil⟩
    all_goals decide
  · simp [secondUnavailable, Failure.recoverable, Failure.anyRecoverable, Failure.partRecoverable]

theorem recoverable_calls_firstNoted :
    (fresh "id" true none).registrar.inFlight = 0 ∧
      (∃ q, FailedCall (fresh "id" true none) (.publish { name := "r" } { schema := ⟨"s", "1"⟩ }) 0
          (.remote "r" "s" ⟨"unavailable", []⟩) q ∧
        Succeeds q (.publish { name := "r" } { schema := ⟨"s", "1"⟩ }) 0 fun out _ =>
          ∃ g, out = .registered g) ∧
      ∃ again, (again.map fun d : Definition => d.name) = ["t"] ∧
        Succeeds halfPublished (.publishAll { name := "r" } again) again.length fun out _ =>
          ∃ gs, out = .registeredAll gs := by
  obtain ⟨hone, hbatch⟩ := recoverable_calls "id" true none [] _ rfl rfl { name := "r" }
  have hfailed : FailedCall (fresh "id" true none)
      (.publish { name := "r" } { schema := ⟨"s", "1"⟩ }) 0 (.remote "r" "s" ⟨"unavailable", []⟩)
      (((fresh "id" true none).ask (.publish { name := "r" } { schema := ⟨"s", "1"⟩ })).moves
        [.run 0, .answerPublish 0 (.refused ⟨"unavailable", []⟩)]) := by
    refine ⟨⟨_, ?_, rfl⟩, rfl, by simp [Failure.recoverable], rfl⟩
    simp only [List.forall_mem_cons]
    refine ⟨.run 0 ?_ ?_, .answer 0 _ ?_ ?_, fun m hm => absurd hm List.not_mem_nil⟩
    all_goals decide
  obtain ⟨-, hretry⟩ := hbatch twoSchemas _ _ failedCall_firstNoted
  refine ⟨rfl, ⟨_, hfailed, hone _ _ _ hfailed⟩,
    twoSchemas.filter (·.recoverableIn secondUnavailable.parts), ?_,
    hretry (by decide +kernel) _ (.refl _)⟩
  simp only [secondUnavailable, Failure.parts, Definition.recoverableIn, List.any_cons, List.any_nil,
    Failure.recoverable]
  decide +kernel

/-- **A whole batch that failed with what is recoverable** need not succeed when it is repeated, whatever
the registry answers: what was registered of it is live. -/
theorem repeat_neverSucceeds :
    FailedCall (fresh "id" true none) (.publishAll { name := "r" } twoSchemas) 2 secondUnavailable
        halfPublished ∧
      ∀ (later : List Move) (gs : List Registration),
        (∀ m ∈ later, m.Within halfPublished.tasks.length (halfPublished.tasks.length + 2)) →
          ((halfPublished.ask (.publishAll { name := "r" } twoSchemas)).moves later).outcome?
            halfPublished.tasks.length ≠ some (.registeredAll gs) := by
  refine ⟨failedCall_firstNoted, fun later gs hlater hout => ?_⟩
  have hregular : halfPublished.Regular :=
    ((regular_moves "id" true none []).move (.ask _)).moves firstNoted
  obtain ⟨-, hfree⟩ := hregular.free_of_registeredAll rfl hlater hout
  obtain ⟨-, hfind⟩ := hfree { schema := ⟨"s", "1"⟩ } List.mem_cons_self
  have hlive : (halfPublished.registrar.find? "r" "s").isSome := by rfl
  rw [hfind] at hlive
  cases hlive

end Publisher
end SchemaHerald
