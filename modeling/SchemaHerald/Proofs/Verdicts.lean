import SchemaHerald.Proofs.Commitments

/-!
# What becomes of a schema that is published

Schemas with different names are published to one registry that answers each of them in one way, and
nothing else goes on. Then what becomes of a schema does not depend on the others, nor on the order of
the calls and their answers: `Circumstances.verdict` computes it from the registrar as it was at the
beginning. `Tracks` says of any number of tasks that publish such schemas, and of the registrar, that
each of them is on the way to its verdict: the slot of its key is as its own stage says, whatever the
others do, and the handle is the one that the first of them gets. It is kept by the turns of these tasks
and by the answers to their calls (`Tracks.run`, `Tracks.answer`).

Numbers and ids are given out in the order of the calls. What is the same but for them is compared
without them (`Registration.bare`).
-/
namespace SchemaHerald

/-! ## Numbers and ids left out -/

/-- A record without its id. -/
def Record.bare (r : Record) : Record := { r with registrationId := "" }

/-- A registration without its number and its id. -/
def Registration.bare (g : Registration) : Registration :=
  { g with serial := 0, record := g.record.bare }

/-- An outcome without numbers and ids. -/
def Outcome.bare : Outcome → Outcome
  | .registered g => .registered g.bare
  | o => o

/-- An answer without an id. -/
def Answer.bare : Answer → Answer
  | .record r => .record r.bare
  | a => a

/-- Answers that are the same but for ids are both records, or they are the same. -/
theorem Answer.cases_of_bare {a b : Answer} (h : a.bare = b.bare) :
    (∃ r r', a = .record r ∧ b = .record r' ∧ r.bare = r'.bare) ∨
      (a = b ∧ ∀ r, a ≠ .record r) := by
  cases a with
  | record r =>
    cases b with
    | record r' => exact .inl ⟨r, r', rfl, rfl, Answer.record.inj h⟩
    | _ => cases h
  | _ =>
    cases b with
    | record => cases h
    | _ => exact .inr ⟨h, by simp⟩

/-- A slot without numbers and ids. -/
def Slot.bare : Slot → Slot
  | .live g => .live g.bare
  | .reserved => .reserved

namespace Registrar

variable {r r' : Registrar} {o : RegistryOptions} {h : Handle}

theorem handleFor_of_some (hh : r.handles.get? o.name = some h) : r.handleFor o = (h, r) := by
  unfold handleFor
  rw [hh]

/-- The handle that is asked for depends on the handles and on how many there were. -/
theorem handleFor_congr (hhandles : r'.handles = r.handles) (hmade : r'.made = r.made) :
    (r'.handleFor o).1 = (r.handleFor o).1 ∧
      (r'.handleFor o).2.handles = (r.handleFor o).2.handles := by
  unfold handleFor newHandle
  rw [hhandles, hmade]
  split
  · exact ⟨rfl, hhandles⟩
  · exact ⟨rfl, rfl⟩

end Registrar

/-! ## Verdicts -/

/-- **The circumstances** under which schemas are published to one registry. -/
structure Circumstances where
  /-- The registrar at the beginning. -/
  registrar : Registrar
  /-- The options, with no blanks around the registry's name. -/
  options : RegistryOptions
  /-- Whether someone listens. -/
  listening : Bool
  /-- What the registry answers. -/
  answers : Handle → Definition → Answer

namespace Circumstances

variable (w : Circumstances) {d : Definition}

/-- The key of a schema. -/
def key (d : Definition) : Key := Key.canonical w.options.name d.name

/-- The handle of the registry. -/
def handle : Handle := (w.registrar.handleFor w.options).1

/-- What the registry answers for a schema, which is signed. -/
def answer (d : Definition) : Answer := w.answers w.handle (d.stamp w.registrar.publisher)

/-- The registration that a record for a schema makes, without number and id. -/
def registration (d : Definition) (record : Record) : Registration where
  serial := 0
  schema := (w.key d).schema
  publisher := w.registrar.publisher
  record := record.bare
  handle := w.handle
  listened := w.listening

/-- **What becomes of a schema**, without numbers and ids: it has no name, its key is taken, or the
registry has the last word. -/
def verdict (d : Definition) : Outcome :=
  if d.name.isEmpty then .failed (.invalidArgument "schema" "schema name must not be empty")
  else if w.registrar.slots.contains (w.key d) then
    .failed (.duplicate (w.key d).registry (w.key d).schema)
  else
    match w.answer d with
    | .record record => .registered (w.registration d record)
    | .refused cause => .failed (.remote (w.key d).registry (w.key d).schema cause)
    | .broken message => .broken message

/-- The registry is to be called for a schema. -/
structure Free (d : Definition) : Prop where
  name : d.name.isEmpty = false
  slot : w.registrar.slots.get? (w.key d) = none

variable {w}

theorem verdict_of_blank (h : d.name.isEmpty = true) :
    w.verdict d = .failed (.invalidArgument "schema" "schema name must not be empty") := by
  rw [verdict, if_pos h]

theorem verdict_of_taken {slot : Slot} (h : d.name.isEmpty = false)
    (hslot : w.registrar.slots.get? (w.key d) = some slot) :
    w.verdict d = .failed (.duplicate (w.key d).registry (w.key d).schema) := by
  have htaken := (Table.contains_iff _ _).2 ⟨slot, hslot⟩
  rw [verdict, if_neg (by simp [h]), if_pos htaken]

theorem Free.verdict (h : w.Free d) :
    w.verdict d = match w.answer d with
      | .record record => .registered (w.registration d record)
      | .refused cause => .failed (.remote (w.key d).registry (w.key d).schema cause)
      | .broken message => .broken message := by
  have hfree : ¬ w.registrar.slots.contains (w.key d) = true := fun htaken => by
    obtain ⟨slot, hslot⟩ := (Table.contains_iff _ _).1 htaken
    cases h.slot.symm.trans hslot
  rw [Circumstances.verdict, if_neg (by simp [h.name]), if_neg hfree]

/-- Schemas with different names have different keys. -/
theorem key_inj {ds : List Definition} (hnames : (ds.map (·.name)).Nodup) {i j : Nat}
    {d' : Definition} (hd : ds[i]? = some d) (hd' : ds[j]? = some d')
    (hkey : w.key d = w.key d') : i = j := by
  have hname : d.name = d'.name := by
    have hschema := congrArg Key.schema hkey
    simpa [key, Key.canonical] using hschema
  have hi : (ds.map (·.name))[i]? = some d.name := by simp [hd]
  have hj : (ds.map (·.name))[j]? = some d.name := by simp [hd', hname]
  have hlt := (List.getElem?_eq_some_iff.1 hi).1
  exact (List.getElem?_inj hlt hnames).1 (hi.trans hj.symm)

end Circumstances

/-- The stages of a publish that has not reserved its key. -/
def Stage.Waits : Stage → Prop
  | .asked (.publish ..) | .queued .. | .permitted .. => True
  | _ => False

namespace Circumstances

/-- **Where the publish of a schema stands** on the way to its verdict. -/
def Fits (w : Circumstances) (d : Definition) : Stage → Prop
  | .asked (.publish o d') | .queued o d' | .permitted o d' =>
    o.canonical? = .ok w.options ∧ d' = d
  | .publishing k h d' =>
    w.Free d ∧ k = w.key d ∧ h = w.handle ∧ d' = d.stamp w.registrar.publisher
  | .ended o => o.bare = w.verdict d
  | _ => False

/-- What takes the key of a schema when its publish stands there. -/
def slot? (w : Circumstances) (d : Definition) : Option Stage → Option Slot
  | some (.publishing ..) => some .reserved
  | some (.ended (.registered g)) => some (.live g)
  | _ => w.registrar.slots.get? (w.key d)

theorem slot?_of_waits {w : Circumstances} {d : Definition} {s : Stage} (h : s.Waits) :
    w.slot? d (some s) = w.registrar.slots.get? (w.key d) := by
  cases s with
  | asked | queued | permitted => rfl
  | _ => exact h.elim

end Circumstances

namespace Publisher

open Relation

variable {p q : Publisher} {t u first i : Nat} {s s' : Stage} {o : Outcome} {w : Circumstances}
  {ds : List Definition} {d : Definition}

/-! ## Tasks that are on the way -/

/-- **The tasks from `first` on publish the schemas of a list** under circumstances, as far as they are
there; nobody else uses their keys and the handle. -/
structure Tracks (w : Circumstances) (ds : List Definition) (first : Nat) (p : Publisher) : Prop where
  publisher : p.registrar.publisher = w.registrar.publisher
  isOpen : p.registrar.closed = false
  listening : p.listening = w.listening
  fits : ∀ i d s, ds[i]? = some d → p.stage? (first + i) = some s → w.Fits d s
  /-- The slot of a schema's key is as its own task says. -/
  slot : ∀ i d, ds[i]? = some d →
    p.registrar.slots.get? (w.key d) = w.slot? d (p.stage? (first + i))
  /-- The other slots are as they were. -/
  others : ∀ k, (∀ d ∈ ds, w.key d ≠ k) → p.registrar.slots.get? k = w.registrar.slots.get? k
  /-- Either no publish has got further than to wait, or the handle is there. -/
  handles : (p.registrar.handles = w.registrar.handles ∧ p.registrar.made = w.registrar.made ∧
      ∀ i d s, ds[i]? = some d → w.Free d → p.stage? (first + i) = some s → s.Waits) ∨
    (p.registrar.handles = (w.registrar.handleFor w.options).2.handles ∧ ∃ d ∈ ds, w.Free d)

/-- **What happens to a publish in a move that is not its own**: it stays where it stands, or it waits
as before, though it may have been asked for just now or have been given a permit. -/
inductive Drifts (w : Circumstances) (d : Definition) : Option Stage → Option Stage → Prop
  | stays (a : Option Stage) : Drifts w d a a
  | waits (a : Option Stage) (s : Stage) (ha : ∀ s, a = some s → s.Waits) (hs : s.Waits)
      (hfits : w.Fits d s) : Drifts w d a (some s)

section Drifting
variable {a b : Option Stage}

theorem Drifts.of_eq (h : b = a) : Drifts w d a b := by
  rw [h]
  exact .stays a

theorem Drifts.fits (h : Drifts w d a b) (ha : ∀ s, a = some s → w.Fits d s) :
    ∀ s, b = some s → w.Fits d s := by
  cases h with
  | stays => exact ha
  | waits s hwaits hs hfits =>
    intro s' hs'
    cases hs'
    exact hfits

theorem Drifts.slot? (h : Drifts w d a b) : w.slot? d b = w.slot? d a := by
  cases h with
  | stays => rfl
  | waits s hwaits hs hfits =>
    rw [Circumstances.slot?_of_waits hs]
    cases a with
    | none => rfl
    | some s₀ => rw [Circumstances.slot?_of_waits (hwaits s₀ rfl)]

theorem Drifts.still_waits (h : Drifts w d a b) (ha : ∀ s, a = some s → s.Waits) :
    ∀ s, b = some s → s.Waits := by
  cases h with
  | stays => exact ha
  | waits s hwaits hs hfits =>
    intro s' hs'
    cases hs'
    exact hs

end Drifting

/-- **Where nothing else changes** the tasks are on the way as before. -/
theorem Tracks.mono (h : Tracks w ds first p) (hregistrar : q.registrar = p.registrar)
    (hlistening : q.listening = p.listening)
    (hdrifts : ∀ i d, ds[i]? = some d → Drifts w d (p.stage? (first + i)) (q.stage? (first + i))) :
    Tracks w ds first q := by
  refine ⟨?_, ?_, hlistening.trans h.listening,
    fun i d s hd => (hdrifts i d hd).fits (fun s hs => h.fits i d s hd hs) s, fun i d hd => ?_,
    fun k hk => ?_, ?_⟩
  · rw [hregistrar, h.publisher]
  · rw [hregistrar, h.isOpen]
  · rw [hregistrar, (hdrifts i d hd).slot?, h.slot i d hd]
  · rw [hregistrar, h.others k hk]
  · rw [hregistrar]
    refine h.handles.imp_left fun ⟨hhandles, hmade, hwait⟩ => ⟨hhandles, hmade, ?_⟩
    intro i d s hd hfree
    exact (hdrifts i d hd).still_waits (fun s hs => hwait i d s hd hfree hs) s

/-- **One task gets further**, and with it the slot of its key. -/
theorem Tracks.change (h : Tracks w ds first p) (hnames : (ds.map (·.name)).Nodup)
    (hd : ds[i]? = some d) (hpublisher : q.registrar.publisher = p.registrar.publisher)
    (hclosed : q.registrar.closed = p.registrar.closed) (hlistening : q.listening = p.listening)
    (hs : q.stage? (first + i) = some s) (hfits : w.Fits d s)
    (hdrifts : ∀ j d, ds[j]? = some d → j ≠ i →
      Drifts w d (p.stage? (first + j)) (q.stage? (first + j)))
    (hslots : ∀ k, q.registrar.slots.get? k =
      if k = w.key d then w.slot? d (some s) else p.registrar.slots.get? k)
    (hhandles : (¬ w.Free d ∧ q.registrar.handles = p.registrar.handles ∧
        q.registrar.made = p.registrar.made) ∨
      (w.Free d ∧ q.registrar.handles = (w.registrar.handleFor w.options).2.handles)) :
    Tracks w ds first q := by
  refine ⟨hpublisher.trans h.publisher, hclosed.trans h.isOpen, hlistening.trans h.listening,
    fun j d' s' hd' hs' => ?_, fun j d' hd' => ?_, fun k hk => ?_, ?_⟩
  · by_cases hj : j = i
    · subst hj
      cases hd.symm.trans hd'
      cases hs.symm.trans hs'
      exact hfits
    · exact (hdrifts j d' hd' hj).fits (fun s hs => h.fits j d' s hd' hs) s' hs'
  · by_cases hj : j = i
    · subst hj
      cases hd.symm.trans hd'
      rw [hslots, if_pos rfl, hs]
    · have hne : w.key d' ≠ w.key d := fun he => hj (Circumstances.key_inj hnames hd' hd he)
      rw [hslots, if_neg hne, (hdrifts j d' hd' hj).slot?, h.slot j d' hd']
  · have hne : k ≠ w.key d := fun he => hk d (List.mem_of_getElem? hd) he.symm
    rw [hslots, if_neg hne, h.others k hk]
  · rcases hhandles with ⟨hnot, hsame, hmade⟩ | ⟨hfree, hnew⟩
    · rw [hsame, hmade]
      refine h.handles.imp_left fun ⟨hhandles, hmade', hwait⟩ => ⟨hhandles, hmade', ?_⟩
      intro j d' s' hd' hfree' hs'
      by_cases hj : j = i
      · subst hj
        cases hd.symm.trans hd'
        exact absurd hfree' hnot
      · exact (hdrifts j d' hd' hj).still_waits (fun s hs => hwait j d' s hd' hfree' hs) s' hs'
    · exact .inr ⟨hnew, d, List.mem_of_getElem? hd, hfree⟩

/-- **The end of a task** does nothing to a registrar that is open, and at most gives a permit to a
publish that waits for one. -/
theorem Tracks.drifts_finish (h : Tracks w ds first p) (hp : p.Sound) (ht : p.stage? t = some s)
    {p' : Publisher} (htasks : p'.tasks = p.tasks) (o : Outcome) :
    (p'.finish t o).registrar = p'.registrar ∧
      ∀ j d, ds[j]? = some d → first + j ≠ t →
        Drifts w d (p.stage? (first + j)) ((p'.finish t o).stage? (first + j)) := by
  have hself : p'.parent? t ≠ some t := by
    rw [parent?_congr htasks]
    exact hp.parents.ne_self t
  have hnot : ∀ c d, p.stage? c ≠ some (.draining d) := fun c d hc => by
    have hclosed := (hp.fits c _ hc).1
    rw [h.isOpen] at hclosed
    cases hclosed
  refine ⟨hp.registrar_finish_apart ht htasks (fun c d _ => hnot c d) o, fun j d hd hj => ?_⟩
  have ht' : p'.stage? t = some s := (stage?_congr htasks t).trans ht
  cases finished_finish hself ht' o with
  | alone hno hq =>
    refine .of_eq ?_
    rw [hq, stage?_setStage_of_ne hj, stage?_congr htasks]
  | noted c b b' hparent hb hnoted hc hended hadmits hq =>
    rw [stage?_congr htasks] at hb
    -- the batch that is told is not one of the publishes
    have hjc : first + j ≠ c := fun he => by
      have hfalse : w.Fits d (.gathering b) := h.fits j d _ hd (he ▸ hb)
      exact hfalse
    rcases hadmits _ hj hjc with he | ⟨o', d', he, he'⟩
    · exact .of_eq (he.trans (stage?_congr htasks _))
    · rw [stage?_congr htasks] at he
      have hfits : w.Fits d (.permitted o' d') := h.fits j d (.queued o' d') hd he
      rw [he, he']
      refine .waits _ _ (fun s hs => ?_) trivial hfits
      cases hs
      trivial
  | drained c d hparent hd =>
    rw [stage?_congr htasks] at hd
    exact absurd hd (hnot c d)
  | released c d hparent hd =>
    rw [stage?_congr htasks] at hd
    exact absurd hd (hnot c d)

/-! ## Turns -/

/-- **A publish that has not been let through** is refused, as the verdict says. -/
theorem Tracks.refuse (h : Tracks w ds first p) (hp : p.Sound) (hnames : (ds.map (·.name)).Nodup)
    (hd : ds[i]? = some d) (hs : p.stage? (first + i) = some s) (hwaits : s.Waits)
    (hnot : ¬ w.Free d) (failure : Failure) (hverdict : w.verdict d = .failed failure) :
    Tracks w ds first (p.finish (first + i) (.failed failure)) := by
  obtain ⟨hregistrar, hdrifts⟩ := h.drifts_finish hp hs rfl (.failed failure)
  refine h.change hnames hd (by rw [hregistrar]) (by rw [hregistrar]) (by simp)
    (hp.ended_finish rfl hs _) hverdict.symm (fun j d' hd' hj => hdrifts j d' hd' (by omega))
    (fun k => ?_) (.inl ⟨hnot, by rw [hregistrar], by rw [hregistrar]⟩)
  rw [hregistrar]
  split
  · rename_i hk
    rw [hk, h.slot i d hd, hs, Circumstances.slot?_of_waits hwaits]
    rfl
  · rfl

/-- The handle that a publish is given is the one that the first of them gets. -/
theorem Tracks.handleFor (h : Tracks w ds first p) {r : Registrar}
    (hhandles : r.handles = p.registrar.handles) (hmade : r.made = p.registrar.made) :
    (r.handleFor w.options).1 = w.handle ∧
      (r.handleFor w.options).2.handles = (w.registrar.handleFor w.options).2.handles := by
  rcases h.handles with ⟨hsame, hsame', -⟩ | ⟨hnew, -⟩
  · exact Registrar.handleFor_congr (hhandles.trans hsame) (hmade.trans hsame')
  · have hstored : r.handles.get? w.options.name = some w.handle := by
      rw [hhandles, hnew, Registrar.get?_handleFor, if_pos rfl]
      rfl
    rw [Registrar.handleFor_of_some hstored]
    exact ⟨rfl, hhandles.trans hnew⟩

/-- **A publish reserves its key**, and the registry is called. -/
theorem Tracks.reserve (h : Tracks w ds first p) (hnames : (ds.map (·.name)).Nodup)
    (hd : ds[i]? = some d) (hs : p.stage? (first + i) = some s)
    (hwaits : s.Waits) (hname : d.name.isEmpty = false) {k : Key} {r : Registrar}
    (hr : p.registrar.reserve w.options.name d.name = .ok (k, r)) :
    Tracks w ds first (((p.withRegistrar (r.handleFor w.options).2).setStage (first + i)
      (.publishing k (r.handleFor w.options).1 (d.stamp r.publisher))).see
        (.publishCall (first + i) (r.handleFor w.options).1 (d.stamp r.publisher))) := by
  obtain ⟨-, hk, hfree, hr'⟩ := Registrar.reserve_eq_ok_iff.1 hr
  have hkey : k = w.key d := hk
  subst hkey
  rw [h.slot i d hd, hs, Circumstances.slot?_of_waits hwaits] at hfree
  have hFree : w.Free d := ⟨hname, hfree⟩
  have hhandle := h.handleFor (r := r) (by rw [hr']) (by rw [hr'])
  have hpublisher : r.publisher = w.registrar.publisher := by rw [hr', h.publisher]
  refine h.change hnames hd ?_ ?_ rfl
    (stage?_setStage_self (p := p.withRegistrar (r.handleFor w.options).2) hs)
    ⟨hFree, rfl, hhandle.1, by rw [hpublisher]⟩ (fun j d' hd' hj => .of_eq ?_)
    (fun k => ?_) (.inr ⟨hFree, hhandle.2⟩)
  · exact (Registrar.publisher_handleFor w.options).trans (by rw [hr'])
  · exact (Registrar.closed_handleFor w.options).trans (by rw [hr'])
  · exact stage?_setStage_of_ne (p := p.withRegistrar (r.handleFor w.options).2) (by omega)
  · show (r.handleFor w.options).2.slots.get? k = _
    rw [Registrar.slots_handleFor, hr', Table.get?_insert]
    rfl

/-- **A publish begins**: it is refused, or the registry is called. -/
theorem Tracks.beginPublish (h : Tracks w ds first p) (hp : p.Sound)
    (hnames : (ds.map (·.name)).Nodup) (hd : ds[i]? = some d)
    (hs : p.stage? (first + i) = some s) (hwaits : s.Waits) {o : RegistryOptions}
    (ho : o.canonical? = .ok w.options) :
    Tracks w ds first (p.beginPublish (first + i) o d) := by
  unfold Publisher.beginPublish
  rw [ho]
  dsimp only
  split
  · rename_i hblank
    have hnot : ¬ w.Free d := fun hfree => by
      rw [hfree.name] at hblank
      cases hblank
    exact h.refuse hp hnames hd hs hwaits hnot _ (Circumstances.verdict_of_blank hblank)
  · rename_i hname
    have hname := Bool.eq_false_iff.2 hname
    split
    · rename_i failure hr
      rcases Registrar.reserve_eq_error_iff.1 hr with ⟨hclosed, -⟩ | ⟨-, ⟨slot, hslot⟩, hfailure⟩
      · cases h.isOpen.symm.trans hclosed
      · have htaken : w.registrar.slots.get? (w.key d) = some slot := by
          rw [← Circumstances.slot?_of_waits hwaits, ← hs, ← h.slot i d hd]
          exact hslot
        have hnot : ¬ w.Free d := fun hfree => by cases hfree.slot.symm.trans htaken
        refine h.refuse hp hnames hd hs hwaits hnot _ ?_
        rw [Circumstances.verdict_of_taken hname htaken, hfailure]
        rfl
    · rename_i k r hr
      have hreserve := h.reserve hnames hd hs hwaits hname hr
      rwa [← Registrar.publisher_handleFor (r := r) w.options] at hreserve

/-- A publish that waits goes on waiting, and nothing else changes. -/
theorem Tracks.waits (h : Tracks w ds first p) (hd : ds[i]? = some d)
    (hs : p.stage? (first + i) = some s) (hwaits : s.Waits) (hregistrar : q.registrar = p.registrar)
    (hlistening : q.listening = p.listening) (hs' : q.stage? (first + i) = some s')
    (hwaits' : s'.Waits) (hfits : w.Fits d s')
    (hothers : ∀ j d, ds[j]? = some d → j ≠ i → q.stage? (first + j) = p.stage? (first + j)) :
    Tracks w ds first q := by
  refine h.mono hregistrar hlistening fun j d' hd' => ?_
  by_cases hj : j = i
  · subst hj
    cases hd.symm.trans hd'
    rw [hs, hs']
    refine .waits _ _ (fun s₀ hs₀ => ?_) hwaits' hfits
    cases hs₀
    exact hwaits
  · exact .of_eq (hothers j d' hd' hj)

/-- **A member of a batch begins**: it waits for a permit, or it takes one and begins to publish. -/
theorem Tracks.beginMember (h : Tracks w ds first p) (hp : p.Sound)
    (hnames : (ds.map (·.name)).Nodup) (hd : ds[i]? = some d) {o : RegistryOptions} {c : Nat}
    (hs : p.stage? (first + i) = some (.asked (.publish o d)))
    (hparent : p.parent? (first + i) = some c) (ho : o.canonical? = .ok w.options) :
    Tracks w ds first (p.beginMember (first + i) c o d) := by
  unfold Publisher.beginMember
  split
  · rename_i b hb
    -- a batch is not one of the publishes
    have hne : ∀ j d, ds[j]? = some d → first + j ≠ c := fun j d hd he => by
      have hfalse : w.Fits d (.gathering b) := h.fits j d _ hd (he ▸ hb)
      exact hfalse
    have hself : ∀ b', (p.setStage c (.gathering b')).stage? (first + i) =
        some (.asked (.publish o d)) := fun b' => (stage?_setStage_of_ne (hne i d hd)).trans hs
    have waited : ∀ b' {s}, s.Waits → w.Fits d s →
        Tracks w ds first ((p.setStage c (.gathering b')).setStage (first + i) s) :=
      fun b' s hwaits hfits => h.waits hd hs trivial rfl rfl (stage?_setStage_self (hself b')) hwaits
        hfits fun j d hd hj => by
          rw [stage?_setStage_of_ne (by omega), stage?_setStage_of_ne (hne j d hd)]
    split
    · exact waited _ trivial ⟨ho, rfl⟩
    · rename_i n hn
      rw [← beginPublish_setStage _ (first + i) (.permitted o d)]
      have hgranted := waited { b with permits := some n } (s := .permitted o d) trivial ⟨ho, rfl⟩
      exact hgranted.beginPublish (hp.step (.grant o d c b n hs hparent hb hn)) hnames hd
        (stage?_setStage_self (hself _)) trivial ho
    · exact h.beginPublish hp hnames hd hs trivial ho
  · exact h.beginPublish hp hnames hd hs trivial ho

/-- **The turn of a publish** takes it on its way. -/
theorem Tracks.run (h : Tracks w ds first p) (hp : p.Sound) (hnames : (ds.map (·.name)).Nodup)
    (hd : ds[i]? = some d) : Tracks w ds first (p.run (first + i)) := by
  unfold Publisher.run
  split
  · have hturn : Tracks w ds first { p with ready := p.ready.erase (first + i) } :=
      h.mono rfl rfl fun _ _ _ => .stays _
    have hp' : ({ p with ready := p.ready.erase (first + i) } : Publisher).Sound :=
      hp.step (.turn (t := first + i) _)
    generalize ({ p with ready := p.ready.erase (first + i) } : Publisher) = p' at hturn hp'
    dsimp only
    split
    · rename_i request parent htask
      have hs := stage?_eq_some_iff.2 ⟨parent, htask⟩
      have hfits := hturn.fits i d _ hd hs
      cases request with
      | publish o d' =>
        obtain ⟨ho, rfl⟩ := hfits
        cases parent with
        | none => exact hturn.beginPublish hp' hnames hd hs trivial ho
        | some c => exact hturn.beginMember hp' hnames hd hs (by simp [parent?, htask]) ho
      | _ => exact hfits.elim
    · rename_i o d' parent htask
      have hs := stage?_eq_some_iff.2 ⟨parent, htask⟩
      obtain ⟨ho, rfl⟩ := hturn.fits i d _ hd hs
      exact hturn.beginPublish hp' hnames hd hs trivial ho
    · rename_i b parent htask
      exact (hturn.fits i d (.gathering b) hd (stage?_eq_some_iff.2 ⟨parent, htask⟩) : False).elim
    · rename_i td parent htask
      exact (hturn.fits i d (.waiting td) hd (stage?_eq_some_iff.2 ⟨parent, htask⟩) : False).elim
    · rename_i d' parent htask
      exact (hturn.fits i d (.draining d') hd (stage?_eq_some_iff.2 ⟨parent, htask⟩) : False).elim
    · exact hturn
  · exact h

/-! ## Answers -/

/-- **A publish ends as its verdict says**, and its key is taken or free accordingly. -/
theorem Tracks.settle (h : Tracks w ds first p) (hp : p.Sound) (hnames : (ds.map (·.name)).Nodup)
    (hd : ds[i]? = some d) {k : Key} {handle : Handle} {d' : Definition}
    (hs : p.stage? (first + i) = some (.publishing k handle d')) {p' : Publisher}
    (htasks : p'.tasks = p.tasks) (hlistening : p'.listening = p.listening)
    (hpublisher : p'.registrar.publisher = p.registrar.publisher)
    (hclosed : p'.registrar.closed = p.registrar.closed)
    (hhandles : p'.registrar.handles = p.registrar.handles) {o : Outcome}
    (ho : o.bare = w.verdict d)
    (hslots : ∀ k, p'.registrar.slots.get? k =
      if k = w.key d then w.slot? d (some (.ended o)) else p.registrar.slots.get? k) :
    Tracks w ds first (p'.finish (first + i) o) := by
  obtain ⟨hfree, -⟩ := h.fits i d _ hd hs
  obtain ⟨hregistrar, hdrifts⟩ := h.drifts_finish hp hs htasks o
  refine h.change hnames hd (by rw [hregistrar, hpublisher]) (by rw [hregistrar, hclosed])
    ((listening_finish p' _ o).trans hlistening) (hp.ended_finish htasks hs o) ho
    (fun j d' hd' hj => hdrifts j d' hd' (by omega)) (fun k => by rw [hregistrar, hslots])
    (.inr ⟨hfree, ?_⟩)
  rw [hregistrar, hhandles]
  -- the handle is there, since the registry is called through it
  rcases h.handles with ⟨-, -, hwaits⟩ | ⟨hnew, -⟩
  · exact (hwaits i d _ hd hfree hs).elim
  · exact hnew

/-- **The answer to a publish**, which is the registry's own, leads to its verdict. -/
theorem Tracks.answer (h : Tracks w ds first p) (hp : p.Sound) (hnames : (ds.map (·.name)).Nodup)
    (hd : ds[i]? = some d) {a : Answer}
    (ha : ∀ k handle d', p.stage? (first + i) = some (.publishing k handle d') →
      a.bare = (w.answers handle d').bare) :
    Tracks w ds first (p.answerPublish (first + i) a) := by
  unfold Publisher.answerPublish
  split
  · rename_i k handle d' hs
    obtain ⟨hfree, rfl, rfl, rfl⟩ := h.fits i d _ hd hs
    have hanswer : a.bare = (w.answer d).bare := ha _ _ _ hs
    have hreserved : p.registrar.slots.get? (w.key d) = some .reserved := by
      rw [h.slot i d hd, hs]
      rfl
    have hverdict := hfree.verdict
    -- a publish that comes to nothing leaves its key free
    have abandoned : ∀ {o : Outcome}, o.bare = w.verdict d → (∀ g, o ≠ .registered g) →
        Tracks w ds first
          ((p.withRegistrar (p.registrar.abandon (w.key d))).wakeIdle.finish (first + i) o) := by
      intro o ho hno
      refine h.settle hp hnames hd hs (by simp) (by simp) (by simp [Registrar.abandon])
        (by simp [Registrar.abandon]) (by simp [Registrar.abandon]) ho fun k => ?_
      have hslot : w.slot? d (some (.ended o)) = none := by
        cases o with
        | registered g => exact absurd rfl (hno g)
        | _ => exact hfree.slot
      rw [registrar_wakeIdle, registrar_withRegistrar, hslot]
      exact Registrar.get?_unreserve hreserved
    rcases Answer.cases_of_bare hanswer with ⟨record, record', rfl, hw, hbare⟩ | ⟨hsame, hno⟩
    · rw [hw] at hverdict
      have hregister : ∀ k handle, (p.withRegistered k record handle).registrar =
          (p.registrar.register k record handle p.listening).2 := fun _ _ => by simp
      refine h.settle hp hnames hd hs (tasks_withRegistered ..) (listening_withRegistered ..)
        (by rw [hregister]; rfl) (by rw [hregister]; rfl) (by rw [hregister]; rfl) ?_ fun k => ?_
      · rw [hverdict]
        simp only [Outcome.bare, Registration.bare, Circumstances.registration,
          hbare, h.publisher, h.listening]
      · rw [registrar_withRegistered]
        exact Table.get?_insert ..
    · rw [← hsame] at hverdict
      cases a with
      | record record => exact absurd rfl (hno record)
      | refused cause => exact abandoned hverdict.symm (by simp)
      | broken message => exact abandoned hverdict.symm (by simp)
  · rename_i g d' hs
    exact (h.fits i d (.tryingPublish g d') hd hs : False).elim
  · exact h

/-! ## Beginnings and ends -/

/-- **At the beginning** no publish has got further than to wait. -/
theorem tracks_begin (hopen : p.registrar.closed = false) (hregistrar : w.registrar = p.registrar)
    (hlistening : w.listening = p.listening)
    (hwaits : ∀ i d s, ds[i]? = some d → p.stage? (first + i) = some s → s.Waits ∧ w.Fits d s) :
    Tracks w ds first p := by
  refine ⟨by rw [hregistrar], hopen, hlistening.symm, fun i d s hd hs => (hwaits i d s hd hs).2,
    fun i d hd => ?_, fun k _ => by rw [hregistrar],
    .inl ⟨by rw [hregistrar], by rw [hregistrar], fun i d s hd _ hs => (hwaits i d s hd hs).1⟩⟩
  cases hs : p.stage? (first + i) with
  | none =>
    rw [← hregistrar]
    rfl
  | some s => rw [Circumstances.slot?_of_waits (hwaits i d s hd hs).1, hregistrar]

/-- A publish is asked for. -/
theorem Tracks.ask (h : Tracks w ds first p) (hd : ds[i]? = some d)
    (hnew : p.tasks.length = first + i) {o : RegistryOptions} (ho : o.canonical? = .ok w.options) :
    Tracks w ds first (p.ask (.publish o d)) := by
  refine h.mono rfl rfl fun j d' hd' => ?_
  have hask := stage?_append (tasks_ask p (.publish o d)) (first + j)
  rcases Nat.lt_trichotomy j i with hlt | rfl | hlt
  · rw [if_pos (by omega)] at hask
    exact .of_eq hask
  · cases hd.symm.trans hd'
    have hnone : p.stage? (first + j) = none := by simp [stage?, hnew]
    rw [hask, if_neg (by omega), hnew, Nat.sub_self, hnone]
    exact .waits _ _ (by simp) trivial ⟨ho, rfl⟩
  · have hnone : p.stage? (first + j) = none := by simp [stage?, hnew]; omega
    rw [if_neg (by omega), List.getElem?_eq_none (by simp; omega)] at hask
    exact .of_eq (hask.trans hnone.symm)

/-- All publishes have ended. -/
def AllEnded (ds : List Definition) (first : Nat) (p : Publisher) : Prop :=
  ∀ i d, ds[i]? = some d → ∃ o, p.outcome? (first + i) = some o

/-- **A publish that has ended** has ended as its verdict says. -/
theorem Tracks.outcome (h : Tracks w ds first p) (hd : ds[i]? = some d)
    (ho : p.outcome? (first + i) = some o) : o.bare = w.verdict d :=
  h.fits i d (.ended o) hd (outcome?_eq_some_iff.1 ho)

/-- What takes the key of a schema in the end is a matter of the verdict. -/
theorem Tracks.final_slot (h : Tracks w ds first p) (hd : ds[i]? = some d)
    (ho : p.outcome? (first + i) = some o) :
    (p.registrar.slots.get? (w.key d)).map Slot.bare =
      match w.verdict d with
      | .registered g => some (.live g)
      | _ => (w.registrar.slots.get? (w.key d)).map Slot.bare := by
  rw [h.slot i d hd, outcome?_eq_some_iff.1 ho, ← h.outcome hd ho]
  cases o <;> rfl

section Twice
variable {p' : Publisher} {first' : Nat} (h : Tracks w ds first p) (hended : AllEnded ds first p)
  (h' : Tracks w ds first' p') (hended' : AllEnded ds first' p')
include h hended h' hended'

/-- **What takes a key in the end** is the same, but for numbers and ids, whichever tasks publish
the schemas and in whatever order. -/
theorem Tracks.same_slots (k : Key) :
    (p.registrar.slots.get? k).map Slot.bare = (p'.registrar.slots.get? k).map Slot.bare := by
  by_cases hk : ∃ d ∈ ds, w.key d = k
  · obtain ⟨d, hmem, rfl⟩ := hk
    obtain ⟨i, hd⟩ := List.mem_iff_getElem?.1 hmem
    obtain ⟨o, ho⟩ := hended i d hd
    obtain ⟨o', ho'⟩ := hended' i d hd
    rw [h.final_slot hd ho, h'.final_slot hd ho']
  · have hnot : ∀ d ∈ ds, w.key d ≠ k := fun d hmem he => hk ⟨d, hmem, he⟩
    rw [h.others k hnot, h'.others k hnot]

/-- **So are the handles**, with their numbers. -/
theorem Tracks.same_handles : p.registrar.handles = p'.registrar.handles := by
  -- a publish that calls the registry has ended, and so does not wait for ever
  have final : ∀ {first p}, Tracks w ds first p → AllEnded ds first p →
      (p.registrar.handles = w.registrar.handles ∧ ∀ d ∈ ds, ¬ w.Free d) ∨
        (p.registrar.handles = (w.registrar.handleFor w.options).2.handles ∧
          ∃ d ∈ ds, w.Free d) := by
    intro first p h hended
    refine h.handles.imp_left fun ⟨hsame, _, hwaits⟩ => ⟨hsame, fun d hmem hfree => ?_⟩
    obtain ⟨i, hd⟩ := List.mem_iff_getElem?.1 hmem
    obtain ⟨o, ho⟩ := hended i d hd
    exact hwaits i d _ hd hfree (outcome?_eq_some_iff.1 ho)
  rcases final h hended with ⟨hsame, hnone⟩ | ⟨hnew, d, hmem, hfree⟩
  · rcases final h' hended' with ⟨hsame', -⟩ | ⟨-, d, hmem, hfree⟩
    · rw [hsame, hsame']
    · exact absurd hfree (hnone d hmem)
  · rcases final h' hended' with ⟨-, hnone⟩ | ⟨hnew', -⟩
    · exact absurd hfree (hnone d hmem)
    · rw [hnew, hnew']

end Twice

end Publisher
end SchemaHerald
