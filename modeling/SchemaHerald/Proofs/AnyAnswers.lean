import SchemaHerald.Proofs.ConcurrentBatches

/-!
# A batch whose registry answers anything

`Tracks` and `Stands` speak of a registry that answers according to the handle and the definition. A
batch of schemas with different names calls at most once for each name, so whatever it is answered is
what some such registry answers: when an answer comes in, the registry is taken to have had it in mind
all along (`Circumstances.answersBut`, `Stands.reanswer`). So a batch stands somewhere under any schedule
of its tasks and any answers (`Stands.any`).

What a batch that has ended adds to the registrar are its registrations and nothing else
(`Tracks.gains`). When all its names are free and every answer is a record, it ends with a registration
for each of them (`Regular.succeeds`).
-/
namespace SchemaHerald

/-- The registry notes what it was called for, if the move is an answer to a publish. -/
def Move.Accepts : Move → Prop
  | .answerPublish _ a => ∃ record, a = .record record
  | _ => True

namespace Circumstances

variable {w : Circumstances} {d : Definition} {name : String} {a : Answer}
  {answers : Handle → Definition → Answer}

/-- What the registry answers, but for the schema of one name. -/
def answersBut (w : Circumstances) (name : String) (a : Answer) (handle : Handle) (d : Definition) :
    Answer :=
  if d.name = name then a else w.answers handle d

theorem bare_answersBut (w : Circumstances) (a : Answer) (handle : Handle) (d : Definition) :
    (Circumstances.answers { w with answers := w.answersBut d.name a } handle d).bare = a.bare := by
  simp only [answersBut, if_true]

/-- The registry notes whatever it is called for. -/
def Accepts (w : Circumstances) : Prop := ∀ handle d, ∃ record, w.answers handle d = .record record

theorem Accepts.but (h : w.Accepts) (ha : ∃ record, a = .record record) (name : String) :
    Circumstances.Accepts { w with answers := w.answersBut name a } := by
  intro handle d
  simp only [answersBut]
  by_cases hd : d.name = name
  · rw [if_pos hd]
    exact ha
  · rw [if_neg hd]
    exact h handle d

/-- What becomes of a schema depends on the answer to it alone. -/
theorem verdict_congr
    (h : answers w.handle (d.stamp w.registrar.publisher) = w.answer d) :
    Circumstances.verdict { w with answers } d = w.verdict d := by
  have hanswer : Circumstances.answer { w with answers } d = w.answer d := h
  unfold verdict
  rw [hanswer]
  rfl

theorem Free.with_answers (h : w.Free d) (answers : Handle → Definition → Answer) :
    Circumstances.Free { w with answers } d := ⟨h.name, h.slot⟩

theorem Free.of_with_answers (h : Circumstances.Free { w with answers } d) : w.Free d :=
  ⟨h.name, h.slot⟩

/-- A publish that has not ended stands on its way as before, whatever the answers are to be. -/
theorem Fits.with_answers {s : Stage} (h : w.Fits d s)
    (hs : ∀ out, s = .ended out →
      answers w.handle (d.stamp w.registrar.publisher) = w.answer d) :
    Circumstances.Fits { w with answers } d s := by
  cases s with
  | publishing k handle d' =>
    obtain ⟨hfree, hrest⟩ := h
    exact ⟨hfree.with_answers answers, hrest⟩
  | ended out =>
    have hverdict : out.bare = w.verdict d := h
    exact hverdict.trans (verdict_congr (hs out rfl)).symm
  | asked request => cases request <;> exact h
  | _ => exact h

/-- Only a schema whose name is free is registered. -/
theorem Free.of_registered {g : Registration} (h : w.verdict d = .registered g) : w.Free d := by
  unfold Circumstances.verdict at h
  split at h
  · cases h
  · rename_i hname
    split at h
    · cases h
    · rename_i hslot
      refine ⟨Bool.eq_false_iff.2 hname, ?_⟩
      simpa [Table.contains] using hslot

/-- The key of a schema are the names as they are shown. -/
theorem key_eq (w : Circumstances) (h : Text.trim w.options.name = w.options.name)
    (d : Definition) : w.key d = ⟨w.options.name, d.name⟩ := by
  rw [key, Key.canonical, h, d.trim_name]

/-- A schema whose name is free is registered if the registry accepts. -/
theorem Free.verdict_of_accepts (h : w.Free d) (haccepts : w.Accepts) :
    ∃ record, w.verdict d = .registered (w.registration d record) := by
  obtain ⟨record, hrecord⟩ := haccepts w.handle (d.stamp w.registrar.publisher)
  refine ⟨record, ?_⟩
  rw [h.verdict, show w.answer d = .record record from hrecord]

end Circumstances

namespace Registrar

variable {r r' r'' : Registrar} {gs gs' : List Registration}

/-- **A registrar gains registrations** and loses none: they are listed next to those that were, and
are found under their own names. -/
structure Gains (r r' : Registrar) (gs : List Registration) : Prop where
  listed : r'.registrations.Perm (r.registrations ++ gs)
  found : ∀ registry schema g, r'.find? registry schema = some g ↔
    r.find? registry schema = some g ∨ (g ∈ gs ∧ g.key = Key.canonical registry schema)

theorem Gains.trans (h : r.Gains r' gs) (h' : r'.Gains r'' gs') : r.Gains r'' (gs ++ gs') where
  listed := by
    rw [← List.append_assoc]
    exact h'.listed.trans (h.listed.append_right gs')
  found registry schema g := by
    rw [h'.found, h.found, List.mem_append]
    tauto

/-- **Slots that are taken by registrations** under their keys, and were free before, are gained. -/
theorem gains_of_slots (hkeys : (gs.map (·.key)).Nodup)
    (hnew : ∀ g ∈ gs, r.slots.get? g.key = none)
    (h : ∀ k slot, r'.slots.get? k = some slot ↔
      r.slots.get? k = some slot ∨ ∃ g ∈ gs, g.key = k ∧ slot = .live g) : r.Gains r' gs where
  listed := by
    have hentries : r'.slots.entries.Perm
        (r.slots.entries ++ gs.map fun g => (g.key, Slot.live g)) := by
      refine Table.entries_perm_append ?_ ?_ fun k slot => ?_
      · rw [List.map_map]
        exact hkeys
      · intro e he
        obtain ⟨g, hg, rfl⟩ := List.mem_map.1 he
        exact hnew g hg
      · rw [h, List.mem_map]
        simp only [Prod.mk.injEq, eq_comm]
    have hvalues : (r'.slots.values.filterMap Slot.registration?).Perm
        (r.slots.values.filterMap Slot.registration? ++ gs) := by
      have hperm := (hentries.map (·.2)).filterMap Slot.registration?
      rw [List.map_append, List.filterMap_append, List.map_map] at hperm
      have hgs : (gs.map fun g => Slot.live g).filterMap Slot.registration? = gs := by
        rw [List.filterMap_map]
        exact List.filterMap_some
      exact hgs ▸ hperm
    exact (List.mergeSort_perm _ _).trans
      (hvalues.trans ((List.mergeSort_perm _ _).symm.append_right gs))
  found registry schema g := by
    show r'.live? _ = some g ↔ r.live? _ = some g ∨ _
    rw [live?_eq_some_iff, live?_eq_some_iff, h]
    refine or_congr_right ⟨?_, fun ⟨hg, hk⟩ => ⟨g, hg, hk, rfl⟩⟩
    rintro ⟨g', hg', hk, hlive⟩
    cases hlive
    exact ⟨hg', hk⟩

end Registrar

namespace Publisher

variable {p q : Publisher} {t c i n first : Nat} {s : Stage} {w : Circumstances}
  {ds : List Definition} {d : Definition} {o : RegistryOptions} {ms : List Move} {out : Outcome}

/-! ## Any answers -/

/-- **As long as a publish has not ended** its answer may be any. -/
theorem Tracks.reanswer (h : Tracks w ds first p) {answers : Handle → Definition → Answer}
    (hsame : ∀ i d out, ds[i]? = some d → p.stage? (first + i) = some (.ended out) →
      answers w.handle (d.stamp w.registrar.publisher) = w.answer d) :
    Tracks { w with answers } ds first p := by
  refine ⟨h.publisher, h.isOpen, h.listening, fun i d s hd hs => ?_, h.slot, h.others, ?_⟩
  · exact (h.fits i d s hd hs).with_answers fun out he => hsame i d out hd (he ▸ hs)
  · rcases h.handles with ⟨hhandles, hmade, hwaits⟩ | ⟨hnew, d', hmem, hfree⟩
    · exact .inl ⟨hhandles, hmade, fun i d s hd hfree => hwaits i d s hd hfree.of_with_answers⟩
    · exact .inr ⟨hnew, d', hmem, hfree.with_answers answers⟩

/-- **While a member of a batch waits for its answer**, that may be any. -/
theorem Stands.reanswer (h : Stands w o ds c p n) (hnames : (ds.map (·.name)).Nodup)
    (hfirst : c ≤ t) (hlast : t ≤ c + ds.length) {k : Key} {handle : Handle} {d' : Definition}
    (hs : p.stage? t = some (.publishing k handle d')) (a : Answer) :
    Stands { w with answers := w.answersBut d'.name a } o ds c p n := by
  obtain ⟨⟨hunderway, hne, rfl⟩, -⟩ := h.calling hfirst hlast hs trivial
  rcases eq_or_mem_range' hfirst hlast with rfl | ⟨i, d, rfl, hd, -⟩
  · exfalso
    rcases hunderway.crewed with ⟨b, hcrewed⟩ | ⟨outcome, hc⟩
    · cases hcrewed.gathering.symm.trans hs
    · cases hc.symm.trans hs
  · obtain ⟨-, -, -, hd'⟩ := hunderway.tracks.fits i d _ hd hs
    have hname : d'.name = d.name := by rw [hd', Definition.name_stamp]
    refine .begun ⟨hunderway.regular, hunderway.tracks.reanswer fun j d₁ out hd₁ hj => ?_,
      hunderway.gathers, hunderway.publishes, hunderway.crewed⟩ hne
    -- whoever has ended has another name
    refine if_neg fun he => ?_
    have hij : j = i := Circumstances.key_inj (w := w) hnames hd₁ hd
      (congrArg (Key.canonical w.options.name) (he.trans hname))
    rw [hij, hs] at hj
    cases hj

/-- **A move, with any answer**, leaves a batch standing somewhere. -/
theorem Stands.move_any (h : Stands w o ds c p n) (hnames : (ds.map (·.name)).Nodup)
    (ho : o.canonical? = .ok w.options) {m : Move} (hm : m.Within c (c + ds.length)) :
    ∃ answers n', n' ≤ n ∧ (m.Counts p → n' + 1 ≤ n) ∧
      Stands { w with answers } o ds c (p.move m) n' ∧
      (w.Accepts → m.Accepts → Circumstances.Accepts { w with answers }) := by
  by_cases hcounts : m.Counts p
  · cases hm with
    | run t hfirst hlast =>
      obtain ⟨n', hlt, hran⟩ := h.run hnames ho (RegistryOptions.canonical?_again ho) hfirst hlast hcounts
      exact ⟨w.answers, n', by omega, fun _ => hlt, hran, fun haccepts _ => haccepts⟩
    | answer t a hfirst hlast =>
      obtain ⟨k, handle, d', hs⟩ := hcounts
      obtain ⟨n', hlt, hanswered⟩ := (h.reanswer hnames hfirst hlast hs a).answer hnames hfirst hlast
        hs (w.bare_answersBut a handle d').symm
      exact ⟨_, n', by omega, fun _ => hlt, hanswered, fun haccepts ha => haccepts.but ha _⟩
  · rw [h.move_eq hm hcounts]
    exact ⟨w.answers, n, le_rfl, fun hcounts' => absurd hcounts' hcounts, h,
      fun haccepts _ => haccepts⟩

/-- **All along a schedule, with any answers**, a batch stands somewhere, and as many moves as made a
difference are not to come any more. -/
theorem Stands.any (h : Stands w o ds c p n) (hnames : (ds.map (·.name)).Nodup)
    (ho : o.canonical? = .ok w.options) (hms : ∀ m ∈ ms, m.Within c (c + ds.length)) :
    ∃ answers n', n' ≤ n ∧ (Busy p ms → ms.length + n' ≤ n) ∧
      Stands { w with answers } o ds c (p.moves ms) n' ∧
      (w.Accepts → (∀ m ∈ ms, m.Accepts) → Circumstances.Accepts { w with answers }) := by
  induction ms generalizing p n w with
  | nil => exact ⟨w.answers, n, le_rfl, fun _ => by simp, h, fun haccepts _ => haccepts⟩
  | cons m ms ih =>
    obtain ⟨answers, n₁, hle, hlt, hmoved, haccepts⟩ :=
      h.move_any hnames ho (hms m List.mem_cons_self)
    obtain ⟨answers', n', hle', hbusy, hstands, haccepts'⟩ :=
      ih hmoved ho fun m' hm' => hms m' (List.mem_cons_of_mem m hm')
    refine ⟨answers', n', by omega, fun ⟨hcounts, hb⟩ => ?_, hstands, fun hw hall => ?_⟩
    · have hone := hlt hcounts
      have hrest := hbusy hb
      rw [List.length_cons]
      omega
    · exact haccepts' (haccepts hw (hall m List.mem_cons_self)) fun m' hm' =>
        hall m' (List.mem_cons_of_mem m hm')

/-! ## How a batch begins -/

/-- **What stops a batch** before it has made a task, and what it comes to then. -/
inductive BatchRefused (limit : Option Nat) (o : RegistryOptions) (ds : List Definition) :
    Outcome → Prop
  | nothing (hnil : ds = []) : BatchRefused limit o ds (.failed .nothingToPublish)
  | nameless (hne : ds ≠ []) (hname : Text.trim o.name = "") : BatchRefused limit o ds
      (.failed (.invalidArgument "registry" "registry name must not be empty"))
  | tooMany (hne : ds ≠ []) (hname : Text.trim o.name ≠ "") (n : Nat) (hn : limit = some n)
      (hmany : Batch.mostPermits < n) (message : String) : BatchRefused limit o ds (.broken message)

/-- A batch that nothing stops makes its tasks. -/
theorem beginBatch_refused (p : Publisher) (c : Nat) (o : RegistryOptions) (ds : List Definition) :
    (ds ≠ [] ∧ Text.trim o.name ≠ "" ∧ ∀ n, p.limit = some n → n ≤ Batch.mostPermits) ∨
      ∃ out, BatchRefused p.limit o ds out ∧ p.beginBatch c o ds = p.finish c out := by
  unfold beginBatch
  by_cases hne : ds = []
  · rw [if_pos (List.isEmpty_iff.2 hne)]
    exact .inr ⟨_, .nothing hne, rfl⟩
  · rw [if_neg (fun he => hne (List.isEmpty_iff.1 he))]
    by_cases hname : Text.trim o.name = ""
    · rw [RegistryOptions.canonical?_of_blank hname]
      exact .inr ⟨_, .nameless hne hname, rfl⟩
    · rw [RegistryOptions.canonical?_eq_ok_iff.2 ⟨hname, rfl⟩]
      dsimp only
      split
      · rename_i hmany
        obtain ⟨n, hn, hlt⟩ := (Option.any_eq_true _ _).1 hmany
        obtain ⟨k, hk, rfl⟩ := Option.map_eq_some_iff.1 hn
        have hone : 1 ≤ Batch.mostPermits := by decide
        have hlt := of_decide_eq_true hlt
        exact .inr ⟨_, .tooMany hne hname k hk (by omega) _, rfl⟩
      · rename_i hfew
        refine .inl ⟨hne, hname, fun n hn => ?_⟩
        rw [hn] at hfew
        simp only [Option.map_some, Option.any_some, decide_eq_true_eq] at hfew
        omega

/-- **A batch that has ended** had begun, or was refused. -/
theorem Sound.begins (h : p.Sound) (hc : p.stage? c = some (.asked (.publishAll o ds)))
    (hout : (p.moves ms).outcome? c = some out) :
    (ds ≠ [] ∧ Text.trim o.name ≠ "" ∧ ∀ n, p.limit = some n → n ≤ Batch.mostPermits) ∨
      BatchRefused p.limit o ds out := by
  obtain ⟨before, after, rfl, hready, hasked⟩ := h.first_turn hc fun hidle => by
    rw [outcome?_eq_some_iff, hidle] at hout
    cases hout
  have hbefore := h.moves before
  have hlimit : ({ p.moves before with ready := (p.moves before).ready.erase c } :
      Publisher).limit = p.limit := limit_moves p before
  rcases beginBatch_refused { p.moves before with ready := (p.moves before).ready.erase c } c o ds with
    hacceptable | ⟨outcome, hrefused, hfinish⟩
  · rw [hlimit] at hacceptable
    exact .inl hacceptable
  · -- a batch that is refused in its first turn has ended for good
    right
    rw [hlimit] at hrefused
    have hended : ((p.moves before).run c).outcome? c = some outcome := by
      rw [run_of_publishAll hready hasked, hfinish, outcome?_eq_some_iff]
      have htasks : ({ p.moves before with ready := (p.moves before).ready.erase c } :
        Publisher).tasks = (p.moves before).tasks := rfl
      exact hbefore.ended_finish htasks hasked outcome
    have hstays := (hbefore.move (.run c)).outcome?_moves after hended
    rw [moves_append] at hout
    obtain rfl := Option.some.inj (hout.symm.trans hstays)
    exact hrefused

/-! ## What a batch adds -/

variable {registry : String} {gs : List Registration} {parts : List (Part Failure)}

/-- A task ends in one way. -/
theorem Accounts.unique {schema : String} {e e' : Registration ⊕ Part Failure}
    (h : p.Accounts registry schema t e) (h' : p.Accounts registry schema t e') : e = e' := by
  cases h with
  | committed g ho hk | failed failure ho | lost message ho =>
    cases h' with
    | committed g' ho' hk' | failed failure' ho' | lost message' ho' =>
      cases ho.symm.trans ho' <;> rfl

/-- Each position of a batch has an entry, which is what its member came to. -/
theorem BatchAccount.exists_entry (h : p.BatchAccount c first registry ds gs parts out)
    (hd : ds[i]? = some d) :
    ∃ e, p.Accounts registry d.name (first + i) e ∧
      (∀ g, e = .inl g → g ∈ gs) ∧ ∀ part, e = .inr part → part ∈ parts := by
  obtain ⟨es, hperm, hentries, hgs, hparts⟩ := h.entries
  have hi := (List.getElem?_eq_some_iff.1 hd).1
  obtain ⟨⟨i, e⟩, he, rfl⟩ := List.mem_map.1 (hperm.mem_iff.2 (List.mem_range.2 hi))
  obtain ⟨d', hd', haccounts⟩ := hentries i e he
  cases hd.symm.trans hd'
  refine ⟨e, haccounts, fun g hg => ?_, fun part hpart => ?_⟩
  · rw [hgs]
    exact List.mem_filterMap.2 ⟨_, he, by rw [hg]; rfl⟩
  · rw [hparts]
    exact List.mem_filterMap.2 ⟨_, he, by rw [hpart]; rfl⟩

/-- **The registrations of a batch** are what its members ended with. -/
theorem BatchAccount.mem_registrations_iff (h : p.BatchAccount c first registry ds gs parts out)
    {g : Registration} :
    g ∈ gs ↔ ∃ i d, ds[i]? = some d ∧ p.Accounts registry d.name (first + i) (.inl g) := by
  constructor
  · intro hg
    obtain ⟨es, -, hentries, hgs, -⟩ := h.entries
    rw [hgs] at hg
    obtain ⟨⟨i, e⟩, he, hleft⟩ := List.mem_filterMap.1 hg
    exact ⟨i, hentries i _ (Sum.getLeft?_eq_some_iff.1 hleft ▸ he)⟩
  · rintro ⟨i, d, hd, haccounts⟩
    obtain ⟨e, haccounts', hgs, -⟩ := h.exists_entry hd
    exact hgs g (haccounts'.unique haccounts)

/-- **What failed about it** is what the other members ended with. -/
theorem BatchAccount.mem_parts_iff (h : p.BatchAccount c first registry ds gs parts out)
    {part : Part Failure} :
    part ∈ parts ↔ ∃ i d, ds[i]? = some d ∧ p.Accounts registry d.name (first + i) (.inr part) := by
  constructor
  · intro hpart
    obtain ⟨es, -, hentries, -, hparts⟩ := h.entries
    rw [hparts] at hpart
    obtain ⟨⟨i, e⟩, he, hright⟩ := List.mem_filterMap.1 hpart
    exact ⟨i, hentries i _ (Sum.getRight?_eq_some_iff.1 hright ▸ he)⟩
  · rintro ⟨i, d, hd, haccounts⟩
    obtain ⟨e, haccounts', -, hparts⟩ := h.exists_entry hd
    exact hparts part (haccounts'.unique haccounts)

/-- **A part of the failure of a batch** that has the name of a schema is about that schema. -/
theorem BatchAccount.accounts_of_part (h : p.BatchAccount c first registry ds gs parts out)
    (hnames : (ds.map (·.name)).Nodup) (hd : ds[i]? = some d) {part : Part Failure}
    (hpart : part ∈ parts) (hschema : part.schema = d.name) :
    p.Accounts registry d.name (first + i) (.inr part) := by
  obtain ⟨j, d', hd', haccounts⟩ := h.mem_parts_iff.1 hpart
  have hname : part.schema = d'.name := by cases haccounts <;> rfl
  have hi : (ds.map (·.name))[i]? = some d.name := by simp [hd]
  have hj : (ds.map (·.name))[j]? = some d.name := by simp [hd', ← hname, hschema]
  have hij : i = j :=
    (List.getElem?_inj (List.getElem?_eq_some_iff.1 hi).1 hnames).1 (hi.trans hj.symm)
  subst hij
  cases hd.symm.trans hd'
  exact haccounts

/-- What failed has left its key as it was. -/
theorem Tracks.slot_of_failed (h : Tracks w ds first p) (hd : ds[i]? = some d) {schema : String}
    {part : Part Failure} (haccounts : p.Accounts registry schema (first + i) (.inr part)) :
    p.registrar.slots.get? (w.key d) = w.registrar.slots.get? (w.key d) := by
  rw [h.slot i d hd]
  cases haccounts with
  | failed failure ho | lost message ho =>
    rw [outcome?_eq_some_iff.1 ho]
    rfl

/-- Registrations of one registry have the keys that their names say. -/
theorem keys_perm (hregistry : ∀ g ∈ gs, g.registry = Text.trim o.name)
    (hschemas : (gs.map (·.schema)).Perm (ds.map (·.name))) :
    (gs.map (·.key)).Perm (ds.map fun d => Key.canonical o.name d.schema.name) := by
  have hkeys : gs.map (·.key) = (gs.map (·.schema)).map (Key.mk (Text.trim o.name)) := by
    rw [List.map_map]
    refine List.map_congr_left fun g hg => ?_
    rw [Registration.key, hregistry g hg]
    rfl
  have hnames : (ds.map fun d => Key.canonical o.name d.schema.name) =
      (ds.map (·.name)).map (Key.mk (Text.trim o.name)) := by
    rw [List.map_map]
    rfl
  rw [hkeys, hnames]
  exact hschemas.map _

/-- **A batch that has ended** has added its registrations to the registrar, and nothing else. -/
theorem Tracks.gains (h : Tracks w ds first p) (hnames : (ds.map (·.name)).Nodup)
    (htrim : Text.trim w.options.name = w.options.name)
    (haccount : p.BatchAccount c first w.options.name ds gs parts out) :
    w.registrar.Gains p.registrar gs := by
  have came : ∀ g ∈ gs, ∃ i d, ds[i]? = some d ∧ p.outcome? (first + i) = some (.registered g) ∧
      w.Free d ∧ g.key = w.key d := by
    intro g hg
    obtain ⟨i, d, hd, haccounts⟩ := haccount.mem_registrations_iff.1 hg
    cases haccounts with
    | committed g ho hk =>
      exact ⟨i, d, hd, ho, .of_registered (h.outcome hd ho).symm, hk.trans (w.key_eq htrim d).symm⟩
  have hschemas : (gs.map (·.schema)).Nodup :=
    (List.nodup_append.1 (haccount.names.nodup_iff.2 hnames)).1
  refine Registrar.gains_of_slots (.of_map Key.schema ?_) (fun g hg => ?_) fun k slot => ?_
  · rw [List.map_map]
    exact hschemas
  · obtain ⟨i, d, hd, ho, hfree, hk⟩ := came g hg
    rw [hk]
    exact hfree.slot
  · by_cases hk : ∃ d ∈ ds, w.key d = k
    · obtain ⟨d, hmem, rfl⟩ := hk
      obtain ⟨i, hd⟩ := List.mem_iff_getElem?.1 hmem
      obtain ⟨e, haccounts, hgs, -⟩ := haccount.exists_entry hd
      -- a registration under this key is what the schema's own task ended with
      have hown : ∀ g ∈ gs, g.key = w.key d → p.outcome? (first + i) = some (.registered g) := by
        intro g hg hkey
        obtain ⟨j, d', hd', ho', -, hkey'⟩ := came g hg
        cases Circumstances.key_inj hnames hd hd' (hkey.symm.trans hkey')
        exact ho'
      rw [h.slot i d hd]
      cases haccounts with
      | committed g ho hkey =>
        have hfree : w.Free d := .of_registered (h.outcome hd ho).symm
        rw [outcome?_eq_some_iff.1 ho, hfree.slot]
        constructor
        · intro hslot
          exact .inr ⟨g, hgs g rfl, hkey.trans (w.key_eq htrim d).symm, (Option.some.inj hslot).symm⟩
        · rintro (hnone | ⟨g', hg', hkey', rfl⟩)
          · cases hnone
          · cases ho.symm.trans (hown g' hg' hkey')
            rfl
      | failed failure ho | lost message ho =>
        rw [outcome?_eq_some_iff.1 ho]
        refine (or_iff_left ?_).symm
        rintro ⟨g, hg, hkey, -⟩
        cases ho.symm.trans (hown g hg hkey)
    · rw [h.others k fun d hmem he => hk ⟨d, hmem, he⟩]
      refine (or_iff_left ?_).symm
      rintro ⟨g, hg, hkey, -⟩
      obtain ⟨i, d, hd, -, -, hkey'⟩ := came g hg
      exact hk ⟨d, List.mem_of_getElem? hd, hkey'.symm.trans hkey⟩

/-! ## Registries that accept -/

theorem Regular.moves (h : p.Regular) (ms : List Move) : (p.moves ms).Regular := by
  induction ms generalizing p with
  | nil => exact h
  | cons m ms ih => exact ih (h.move m)

/-- When nothing is reserved, names under which nothing is found are free. -/
theorem Sound.free_of_idle (h : p.Sound) (hidle : p.registrar.inFlight = 0) {schema : String}
    (hfind : p.registrar.find? registry schema = none) :
    p.registrar.slots.get? (Key.canonical registry schema) = none := by
  cases hslot : p.registrar.slots.get? (Key.canonical registry schema) with
  | none => rfl
  | some slot =>
    exfalso
    cases slot with
    | reserved =>
      have hmem := (h.claimed.reserved _).1 hslot
      rw [h.claimed.eq_nil hidle] at hmem
      cases hmem
    | live g =>
      rw [Registrar.find?, hslot] at hfind
      cases hfind

/-- A task that is asked for now is the last one. -/
theorem stage?_ask_new (p : Publisher) (request : Request) :
    (p.ask request).stage? p.tasks.length = some (.asked request) := by
  rw [stage?_append (tasks_ask p request), if_neg (Nat.lt_irrefl _), Nat.sub_self]
  rfl

/-- The circumstances of a publisher in which schemas are published to a registry. -/
def circumstances (p : Publisher) (o : RegistryOptions) (answers : Handle → Definition → Answer) :
    Circumstances :=
  ⟨p.registrar, { o with name := Text.trim o.name }, p.listening, answers⟩

theorem key_circumstances (p : Publisher) (o : RegistryOptions)
    (answers : Handle → Definition → Answer) (d : Definition) :
    (p.circumstances o answers).key d = Key.canonical o.name d.schema.name :=
  Key.canonical_trim o.name d

/-- A schema is free now if it has a name and its key is not taken. -/
theorem free_circumstances_iff {answers : Handle → Definition → Answer} :
    (p.circumstances o answers).Free d ↔
      d.name ≠ "" ∧ p.registrar.slots.get? (Key.canonical o.name d.schema.name) = none := by
  rw [← key_circumstances p o answers d]
  constructor
  · intro h
    exact ⟨by simpa using h.name, h.slot⟩
  · rintro ⟨hname, hslot⟩
    exact ⟨by simpa using hname, hslot⟩

/-- **A batch that is asked for now** stands somewhere after any schedule of its tasks, under the
circumstances of now and with answers that are records if all that came were. -/
theorem Regular.stands_any (h : p.Regular) (hopen : p.registrar.closed = false)
    (hname : Text.trim o.name ≠ "") (hlimit : ∀ n, p.limit = some n → n ≤ Batch.mostPermits)
    (hnames : (ds.map (·.name)).Nodup)
    (hms : ∀ m ∈ ms, m.Within p.tasks.length (p.tasks.length + ds.length)) :
    ∃ answers n, Stands (p.circumstances o answers) o ds p.tasks.length
        ((p.ask (.publishAll o ds)).moves ms) n ∧
      (Busy (p.ask (.publishAll o ds)) ms → ms.length ≤ p.ready.length + 4 * (ds.length + 1)) ∧
      ((∀ m ∈ ms, m.Accepts) → (p.circumstances o answers).Accepts) := by
  have ho : o.canonical? = .ok { o with name := Text.trim o.name } :=
    RegistryOptions.canonical?_eq_ok_iff.2 ⟨hname, rfl⟩
  have hawaited : Awaited (p.circumstances o fun _ _ => .record ⟨"", "", none, {}⟩) o ds
      p.tasks.length (p.ask (.publishAll o ds)) := h.awaited hopen rfl rfl hlimit
  obtain ⟨answers, n, -, hbusy, hstands, haccepts⟩ :=
    (Stands.awaited hawaited).any hnames ho hms
  refine ⟨answers, n, hstands, fun hb => ?_, haccepts fun _ _ => ⟨_, rfl⟩⟩
  have hlen := hbusy hb
  have hready : (p.ask (.publishAll o ds)).ready.length ≤ p.ready.length + 1 :=
    length_ready_wake_le _ [p.tasks.length]
  omega

/-- **A batch that failed**, whatever it was answered, was not acceptable, or it had begun and gives account
of its schemas. -/
theorem Regular.account_of_failed (h : p.Regular) (hopen : p.registrar.closed = false)
    (hnames : (ds.map (·.name)).Nodup)
    (hms : ∀ m ∈ ms, m.Within p.tasks.length (p.tasks.length + ds.length)) {failure : Failure}
    (hout : ((p.ask (.publishAll o ds)).moves ms).outcome? p.tasks.length =
      some (.failed failure)) :
    failure = .nothingToPublish ∨ (∃ field message, failure = .invalidArgument field message) ∨
      ((Text.trim o.name ≠ "" ∧ ∀ n, p.limit = some n → n ≤ Batch.mostPermits) ∧
        ∃ answers gs parts, failure = .partialPublish (Text.trim o.name) ds.length parts ∧ parts ≠ [] ∧
          Tracks (p.circumstances o answers) ds (p.tasks.length + 1)
            ((p.ask (.publishAll o ds)).moves ms) ∧
          ((p.ask (.publishAll o ds)).moves ms).BatchAccount p.tasks.length (p.tasks.length + 1)
            (Text.trim o.name) ds gs parts (.failed failure)) := by
  rcases (h.sound.ask _).begins (stage?_ask_new p (.publishAll o ds)) hout with
    ⟨-, hname, hlimit⟩ | hrefused
  · obtain ⟨answers, n, hstands, -, -⟩ := h.stands_any (o := o) hopen hname hlimit hnames hms
    cases hstands with
    | awaited hawaited =>
      rw [outcome?_eq_some_iff, hawaited.asked] at hout
      cases hout
    | refused hnil hc =>
      rw [outcome?_eq_some_iff, hc] at hout
      cases hout
      exact .inl rfl
    | begun hbegun =>
      obtain ⟨-, gs, parts, haccount⟩ := hbegun.account (Text.trim_trim o.name) hout
      rcases haccount.outcome with ⟨-, he⟩ | ⟨hsome, he⟩
      · cases he
      · exact .inr (.inr ⟨⟨hname, hlimit⟩, answers, gs, parts, Outcome.failed.inj he, hsome,
          hbegun.tracks, haccount⟩)
  · cases hrefused with
    | nothing hnil => exact .inl rfl
    | nameless hne hname => exact .inr (.inl ⟨_, _, rfl⟩)

/-- **What is asked for succeeds** at a registry that accepts. Whatever order its tasks, `n` and its own
one, have their turns and answers in, it comes to something good if it ends; as long as it has not
ended something can happen; and only so much can. -/
structure Succeeds (p : Publisher) (request : Request) (n : Nat)
    (Good : Outcome → Publisher → Prop) : Prop where
  good : ∀ ms : List Move,
    (∀ m ∈ ms, m.Within p.tasks.length (p.tasks.length + n)) → (∀ m ∈ ms, m.Accepts) →
    ∀ out, ((p.ask request).moves ms).outcome? p.tasks.length = some out →
      Good out ((p.ask request).moves ms)
  goesOn : ∀ ms : List Move,
    (∀ m ∈ ms, m.Within p.tasks.length (p.tasks.length + n)) → (∀ m ∈ ms, m.Accepts) →
    ((p.ask request).moves ms).outcome? p.tasks.length = none →
      ∃ m : Move, m.Within p.tasks.length (p.tasks.length + n) ∧ m.Accepts ∧
        m.Counts ((p.ask request).moves ms)
  bounded : ∀ ms : List Move,
    (∀ m ∈ ms, m.Within p.tasks.length (p.tasks.length + n)) → (∀ m ∈ ms, m.Accepts) →
    Busy (p.ask request) ms → ms.length ≤ p.ready.length + 4 * (n + 1)

theorem Succeeds.mono {request : Request} {Good Good' : Outcome → Publisher → Prop}
    (h : Succeeds p request n Good) (hgood : ∀ out q, Good out q → Good' out q) :
    Succeeds p request n Good' :=
  { h with good := fun ms hms haccepts out hout => hgood out _ (h.good ms hms haccepts out hout) }

/-- Moves that make a difference one after the other. -/
theorem busy_concat {m : Move} (h : Busy p ms) (hm : m.Counts (p.moves ms)) :
    Busy p (ms ++ [m]) := by
  induction ms generalizing p with
  | nil => exact ⟨hm, trivial⟩
  | cons m' ms ih => exact ⟨h.1, ih h.2 hm⟩

/-- **What succeeds comes to an end** in some order. -/
theorem Succeeds.exists_end {request : Request} {Good : Outcome → Publisher → Prop}
    (h : Succeeds p request n Good) :
    ∃ ms : List Move, (∀ m ∈ ms, m.Within p.tasks.length (p.tasks.length + n)) ∧
      ∃ out, ((p.ask request).moves ms).outcome? p.tasks.length = some out ∧
        Good out ((p.ask request).moves ms) := by
  -- otherwise there are schedules of any length all of whose moves make a difference
  by_contra hnone
  have long : ∀ k, ∃ ms : List Move, ms.length = k ∧
      (∀ m ∈ ms, m.Within p.tasks.length (p.tasks.length + n)) ∧ (∀ m ∈ ms, m.Accepts) ∧
      Busy (p.ask request) ms := by
    intro k
    induction k with
    | zero => exact ⟨[], rfl, by simp, by simp, trivial⟩
    | succ k ih =>
      obtain ⟨ms, hlen, hms, haccepts, hbusy⟩ := ih
      cases hout : ((p.ask request).moves ms).outcome? p.tasks.length with
      | some out => exact absurd ⟨ms, hms, out, hout, h.good ms hms haccepts out hout⟩ hnone
      | none =>
        obtain ⟨m, hwithin, hm, hcounts⟩ := h.goesOn ms hms haccepts hout
        refine ⟨ms ++ [m], by simp [hlen], fun m' hm' => ?_, fun m' hm' => ?_,
          busy_concat hbusy hcounts⟩
        · rcases List.mem_append.1 hm' with hin | hin
          · exact hms m' hin
          · exact List.mem_singleton.1 hin ▸ hwithin
        · rcases List.mem_append.1 hm' with hin | hin
          · exact haccepts m' hin
          · exact List.mem_singleton.1 hin ▸ hm
  obtain ⟨ms, hlen, hms, haccepts, hbusy⟩ := long (p.ready.length + 4 * (n + 1) + 1)
  have hbound := h.bounded ms hms haccepts hbusy
  omega

/-- Who answers as an accepting registry does accepts. -/
theorem accepts_of_follows (haccepts : w.Accepts) {m : Move} (hcounts : m.Counts p)
    (h : m.Follows w.answers p) : m.Accepts := by
  cases m with
  | answerPublish t a =>
    obtain ⟨k, handle, d, hs⟩ := hcounts
    obtain ⟨record, hrecord⟩ := haccepts handle d
    have hbare : a.bare = (w.answers handle d).bare := h k handle d hs
    rw [hrecord] at hbare
    rcases Answer.cases_of_bare hbare with ⟨record', -, hrecord', -, -⟩ | ⟨hsame, -⟩
    · exact ⟨record', hrecord'⟩
    · exact ⟨record, hsame⟩
  | _ => trivial

/-- **A batch of schemas with different names, all of which are free, succeeds** with a registration for
each of them. -/
theorem Regular.succeeds (h : p.Regular) (hopen : p.registrar.closed = false)
    (hname : Text.trim o.name ≠ "") (hlimit : ∀ n, p.limit = some n → n ≤ Batch.mostPermits)
    (hne : ds ≠ []) (hnames : (ds.map (·.name)).Nodup) (hnamed : ∀ d ∈ ds, d.name ≠ "")
    (hfree : ∀ d ∈ ds, p.registrar.slots.get? (Key.canonical o.name d.schema.name) = none) :
    Succeeds p (.publishAll o ds) ds.length fun out q => ∃ gs, out = .registeredAll gs ∧
      (gs.map (·.key)).Perm (ds.map fun d => Key.canonical o.name d.schema.name) ∧
      p.registrar.Gains q.registrar gs := by
  refine ⟨fun ms hms haccepts out hout => ?_, fun ms hms haccepts hout => ?_,
    fun ms hms haccepts hb => ?_⟩
  all_goals
    obtain ⟨answers, n, hstands, hbusy, hrecords⟩ :=
      h.stands_any (o := o) hopen hname hlimit hnames hms
  · cases hstands with
    | awaited hawaited =>
      rw [outcome?_eq_some_iff, hawaited.asked] at hout
      cases hout
    | refused hnil => exact absurd hnil hne
    | begun hbegun =>
      have htrim : Text.trim (p.circumstances o answers).options.name =
          (p.circumstances o answers).options.name := Text.trim_trim o.name
      obtain ⟨-, gs, parts, haccount⟩ := hbegun.account htrim hout
      have hnone : parts = [] := by
        refine List.eq_nil_iff_forall_not_mem.2 fun part hpart => ?_
        obtain ⟨i, d, hd, haccounts⟩ := haccount.mem_parts_iff.1 hpart
        have hmem := List.mem_of_getElem? hd
        have hfree' : (p.circumstances o answers).Free d :=
          free_circumstances_iff.2 ⟨hnamed d hmem, hfree d hmem⟩
        obtain ⟨record, hverdict⟩ := hfree'.verdict_of_accepts (hrecords haccepts)
        cases haccounts with
        | failed failure ho | lost message ho =>
          have hbare := hbegun.tracks.outcome hd ho
          rw [hverdict] at hbare
          cases hbare
      subst hnone
      rcases haccount.outcome with ⟨-, rfl⟩ | ⟨hsome, -⟩
      · have hschemas : (gs.map (·.schema)).Perm (ds.map (·.name)) := by
          simpa using haccount.names
        exact ⟨gs, rfl, keys_perm haccount.registries.1 hschemas,
          hbegun.tracks.gains hnames htrim haccount⟩
      · exact absurd rfl hsome
  · obtain ⟨m, hwithin, hcounts, hfollows, -⟩ := hstands.can_move hout
    exact ⟨m, hwithin, accepts_of_follows (hrecords haccepts) hcounts hfollows, hcounts⟩
  · exact hbusy hb

/-- **A choice of schemas from a batch** succeeds if all that are chosen are free. -/
theorem Regular.succeeds_choice (h : p.Regular) (hopen : p.registrar.closed = false)
    (hname : Text.trim o.name ≠ "") (hlimit : ∀ n, p.limit = some n → n ≤ Batch.mostPermits)
    (hnames : (ds.map (·.name)).Nodup) {chosen : Definition → Bool}
    (hsome : ∃ d ∈ ds, chosen d = true)
    (hfree : ∀ d ∈ ds, chosen d = true → d.name ≠ "" ∧
      p.registrar.slots.get? (Key.canonical o.name d.schema.name) = none)
    {again : List Definition} (hagain : again.Perm (ds.filter chosen)) :
    Succeeds p (.publishAll o again) again.length fun out q => ∃ gs, out = .registeredAll gs ∧
      (gs.map (·.key)).Perm (again.map fun d => Key.canonical o.name d.schema.name) ∧
      p.registrar.Gains q.registrar gs := by
  have hin : ∀ d ∈ again, d ∈ ds ∧ chosen d = true := fun d hd =>
    List.mem_filter.1 (hagain.mem_iff.1 hd)
  have hne : again ≠ [] := by
    obtain ⟨d, hd, hchosen⟩ := hsome
    exact List.ne_nil_of_mem (hagain.mem_iff.2 (List.mem_filter.2 ⟨hd, hchosen⟩))
  have hdifferent : (again.map (·.name)).Nodup :=
    (hagain.map _).nodup_iff.2 (hnames.sublist (List.filter_sublist.map _))
  exact h.succeeds hopen hname hlimit hne hdifferent
    (fun d hd => (hfree d (hin d hd).1 (hin d hd).2).1)
    fun d hd => (hfree d (hin d hd).1 (hin d hd).2).2

end Publisher
end SchemaHerald
