import SchemaHerald.Proofs.Exclusion
import SchemaHerald.Proofs.MemoryAgreement

/-!
# What a close has to report

When every call gets to the registry in memory, sooner or later, a close leaves no record behind. Still
it may have failures to report: an unpublish that somebody else has under way may take the record of a
registration away that the close is about to take back (`TakesApart`), and the close is told then that
there is no such record. `Fate` says what may have become of a registration that a close takes back, and
`Reckons` that each of them has such a fate, at any time of the close. `reports_moves` reads off this
that the failures which a close reports are exactly those.
-/
namespace SchemaHerald

/-- A move after which no call is lost: what is called gets to the registry. -/
def LocalMove.Arrives : LocalMove → Prop
  | .apart (.answerPublish ..) | .apart (.answerUnpublish ..) => False
  | _ => True

/-- A removal has just been noted, or is one of before. -/
theorem Drain.mem_removals_note_iff {d : Drain} {t : Nat} {o : Outcome} {m : Removal} :
    m ∈ (d.note t o).removals ↔
      (m ∈ d.removals ∧ m.task ≠ t) ∨
        ∃ m₀ ∈ d.removals, m₀.task = t ∧ m = { m₀ with outcome := some o } := by
  simp only [note, List.mem_map]
  constructor
  · rintro ⟨m₀, hm₀, rfl⟩
    by_cases htask : m₀.task = t
    · exact .inr ⟨m₀, hm₀, htask, if_pos htask⟩
    · left
      rw [if_neg htask]
      exact ⟨hm₀, htask⟩
  · rintro (⟨hm, htask⟩ | ⟨m₀, hm₀, htask, rfl⟩)
    · exact ⟨m, hm, if_neg htask⟩
    · exact ⟨m₀, hm₀, if_pos htask⟩

namespace LocalPublisher

open Relation Publisher

variable {l l' start : LocalPublisher} {t u c : Nat} {g g' : Registration} {d d' : Drain} {o : Outcome}
  {m : LocalMove} {ms : List LocalMove} {stored stored' : List StoredRecord}
  {apart apart' : Registration → Prop}

/-! ## Records that others take away -/

/-- **A call takes a registration away from a teardown** that is to take it back: it is the call of
another task, and the record of the registration goes by it. -/
structure TakesApart (l : LocalPublisher) (t c : Nat) (g : Registration) : Prop where
  teardown : ∃ d, l.publisher.stage? c = some (.draining d) ∧ g ∈ d.snapshot
  other : l.publisher.parent? t ≠ some c
  unpublishes : l.publisher.stage? t = some (.unpublishing g)
  before : g.stored ∈ l.memory.stored
  after : g.stored ∉ (l.call t).memory.stored

/-- **A registration was taken away** from the teardown of task `c` at some time of a run. -/
def TakenApart (start : LocalPublisher) (ms : List LocalMove) (c : Nat) (g : Registration) : Prop :=
  ∃ past t future, ms = past ++ .call t :: future ∧ (start.moves past).TakesApart t c g

theorem takenApart_concat : TakenApart start (ms ++ [m]) c g ↔
    TakenApart start ms c g ∨ ∃ t, m = .call t ∧ (start.moves ms).TakesApart t c g := by
  constructor
  · rintro ⟨past, t, future, hsplit, htakes⟩
    rcases List.eq_nil_or_concat future with rfl | ⟨future', m', rfl⟩
    · obtain ⟨rfl, hm⟩ := List.append_inj' hsplit rfl
      exact .inr ⟨t, (List.cons.inj hm).1, htakes⟩
    · have hconcat : ms ++ [m] = (past ++ .call t :: future') ++ [m'] := by
        rw [hsplit, List.concat_eq_append, List.append_assoc, List.cons_append]
      obtain ⟨rfl, -⟩ := List.append_inj' hconcat rfl
      exact .inl ⟨past, t, future', rfl, htakes⟩
  · rintro (⟨past, t, future, rfl, htakes⟩ | ⟨t, rfl, htakes⟩)
    · exact ⟨past, t, future ++ [m], by simp, htakes⟩
    · exact ⟨ms, t, [], rfl, htakes⟩

/-- The record of a registration that was made is found by its id. -/
theorem Sane.found_iff (h : l.Sane) (hg : l.publisher.Made g) :
    (∃ s ∈ l.memory.stored, s.isAt g.registry g.id = true) ↔ g.stored ∈ l.memory.stored := by
  constructor
  · rintro ⟨s, hs, hat⟩
    obtain ⟨g', hg', rfl⟩ := h.stored s hs
    obtain rfl := h.eq_of_id hg' hg (MemoryRegistry.isAt_iff.1 hat).2
    exact hs
  · intro hs
    exact ⟨g.stored, hs, MemoryRegistry.isAt_iff.2 ⟨rfl, rfl⟩⟩

/-- **The call of an unpublish** takes the record away if it is there, and fails otherwise. -/
theorem Sane.call_unpublishing (h : l.Sane) (ht : l.publisher.stage? t = some (.unpublishing g)) :
    (g.stored ∈ l.memory.stored ∧ l.call t = l.removed t g) ∨
      (g.stored ∉ l.memory.stored ∧ ∃ cause, l.call t =
        { l with publisher := l.publisher.finish t (.failed (.remote g.registry g.schema cause)) }) := by
  have hfound := h.found_iff (h.acquainted.mentioned t _ g ht rfl)
  rcases l.memory.answerUnpublish_cases g with ⟨⟨cause, he⟩, hno⟩ | ⟨he, hat⟩
  · refine .inr ⟨fun hs => ?_, cause, ?_⟩
    · obtain ⟨s, hmem, hat⟩ := hfound.2 hs
      rw [hno s hmem] at hat
      cases hat
    · simp only [call, ht, he, answerUnpublish]
  · refine .inl ⟨hfound.1 hat, ?_⟩
    simp only [call, ht, he, answerUnpublish]
    rfl

/-! ## What became of a registration -/

/-- **What became of a registration** that a teardown takes back, where `apart` tells which of them
were taken away from it: its record is stored still, or the teardown has taken it back, or it was taken
away. -/
inductive Fate (stored : List StoredRecord) (d : Drain) (apart : Registration → Prop)
    (g : Registration) : Prop
  | owed (hs : g.stored ∈ stored) (hnot : ¬ apart g)
      (hm : ∀ m ∈ d.removals, m.registration = g → m.outcome = none)
  | takenBack (hs : g.stored ∉ stored) (hnot : ¬ apart g)
      (hm : ∃ m ∈ d.removals, m.registration = g ∧ m.outcome = some .done)
  | takenAway (hs : g.stored ∉ stored) (ha : apart g)
      (hm : ∀ m ∈ d.removals, m.registration = g → m.outcome ≠ some .done)

/-- **Every registration of a teardown has its fate**, and no other one was taken away from it. -/
structure Fates (stored : List StoredRecord) (d : Drain) (apart : Registration → Prop) : Prop where
  nodup : d.snapshot.Nodup
  known : ∀ g, apart g → g ∈ d.snapshot
  fate : ∀ g ∈ d.snapshot, Fate stored d apart g

/-- A fate depends on the record, on who has taken it away and on the removals of the registration. -/
theorem Fate.congr (hf : Fate stored d apart g) (hs : g.stored ∈ stored' ↔ g.stored ∈ stored)
    (ha : apart' g ↔ apart g)
    (hm : ∀ m : Removal, m.registration = g → (m ∈ d'.removals ↔ m ∈ d.removals)) :
    Fate stored' d' apart' g := by
  cases hf with
  | owed hs₀ hnot hnone =>
    exact .owed (hs.2 hs₀) (fun h => hnot (ha.1 h)) fun m hmem hmg => hnone m ((hm m hmg).1 hmem) hmg
  | takenBack hs₀ hnot hdone =>
    obtain ⟨m, hmem, hmg, ho⟩ := hdone
    exact .takenBack (fun h => hs₀ (hs.1 h)) (fun h => hnot (ha.1 h)) ⟨m, (hm m hmg).2 hmem, hmg, ho⟩
  | takenAway hs₀ hap hno =>
    exact .takenAway (fun h => hs₀ (hs.1 h)) (ha.2 hap) fun m hmem hmg => hno m ((hm m hmg).1 hmem) hmg

/-- A teardown takes each registration up once. -/
theorem Fates.eq_of_registration (hf : Fates stored d apart) {m m' : Removal}
    (hm : m ∈ d.removals) (hm' : m' ∈ d.removals) (he : m.registration = m'.registration) : m = m' :=
  List.inj_on_of_nodup_map (List.nodup_append.1 hf.nodup).1 hm hm' he

/-- At first everything is owed. -/
theorem Mirrored.fates (hmirror : l.Mirrored) (h : l.Sane) (hnone : ∀ g, ¬ apart g) :
    Fates l.memory.stored { rest := l.publisher.registrar.registrations } apart where
  nodup := List.Nodup.of_map _ h.owned.nodup_registrations
  known g hg := absurd hg (hnone g)
  fate g hg := .owed (hmirror.stored_of_live h hg).2 (hnone g) (by simp)

/-- A registration that is taken up has the fate that it had. -/
theorem Fates.take {rest : List Registration} (hf : Fates stored d apart) (hr : d.rest = g :: rest) :
    Fates stored { rest, removals := d.removals ++ [⟨u, g, none⟩] } apart := by
  have hsnapshot : ({ rest, removals := d.removals ++ [⟨u, g, none⟩] } : Drain).snapshot =
      d.snapshot := by
    simp [Drain.snapshot, hr]
  refine ⟨hsnapshot ▸ hf.nodup, hsnapshot ▸ hf.known, fun g' hg' => ?_⟩
  rw [hsnapshot] at hg'
  have hlast : ∀ m : Removal, m ∈ d.removals ++ [⟨u, g, none⟩] →
      m ∈ d.removals ∨ m.outcome = none := by
    intro m hm
    rcases List.mem_append.1 hm with hm | hm
    · exact .inl hm
    · rw [List.mem_singleton.1 hm]
      exact .inr rfl
  cases hf.fate g' hg' with
  | owed hs hnot hm =>
    refine .owed hs hnot fun m hmem hmg => ?_
    rcases hlast m hmem with hold | hnew
    · exact hm m hold hmg
    · exact hnew
  | takenBack hs hnot hm =>
    obtain ⟨m, hmem, hmg, ho⟩ := hm
    exact .takenBack hs hnot ⟨m, List.mem_append_left _ hmem, hmg, ho⟩
  | takenAway hs ha hm =>
    refine .takenAway hs ha fun m hmem hmg => ?_
    rcases hlast m hmem with hold | hnew
    · exact hm m hold hmg
    · rw [hnew]
      simp

/-- The removal that the task of a teardown is about. -/
theorem removal_of_part {p : Publisher} (hkept : DrainKept p c d) (hp : p.parent? t = some c)
    (ht : p.stage? t = some (.unpublishing g)) :
    ∃ m ∈ d.removals, m.task = t ∧ m.registration = g ∧ m.outcome = none := by
  obtain ⟨m, hm, htask, hstage⟩ := hkept.part hp
  rw [ht, Stage.ofRemoval] at hstage
  split at hstage
  · rename_i hnone
    cases hstage
    exact ⟨m, hm, htask, rfl, hnone⟩
  · cases hstage

/-- **A removal has ended**: the fates of all other registrations are what they were. -/
theorem Fates.note {m₀ : Removal} (hf : Fates stored d apart) (hmem : m₀ ∈ d.removals)
    (htask : m₀.task = t) (honce : (d.removals.map (·.task)).Nodup)
    (hs : ∀ g ∈ d.snapshot, g ≠ m₀.registration → (g.stored ∈ stored' ↔ g.stored ∈ stored))
    (hfate : Fate stored' (d.note t o) apart m₀.registration) :
    Fates stored' (d.note t o) apart := by
  have hsnapshot := d.snapshot_note t o
  refine ⟨hsnapshot ▸ hf.nodup, hsnapshot ▸ hf.known, fun g hg => ?_⟩
  rw [hsnapshot] at hg
  by_cases hsame : g = m₀.registration
  · rw [hsame]
    exact hfate
  · refine (hf.fate g hg).congr (hs g hg hsame) Iff.rfl fun m hmg => ?_
    rw [Drain.mem_removals_note_iff]
    constructor
    · rintro (⟨hm, -⟩ | ⟨m₁, hm₁, htask₁, rfl⟩)
      · exact hm
      · -- the removal of the task is the one of the other registration
        obtain rfl := List.inj_on_of_nodup_map honce hm₁ hmem (htask₁.trans htask.symm)
        exact absurd hmg.symm hsame
    · intro hm
      refine .inl ⟨hm, fun hmt => hsame ?_⟩
      obtain rfl := List.inj_on_of_nodup_map honce hm hmem (hmt.trans htask.symm)
      exact hmg.symm

/-- **A removal that is done** takes back what was owed. -/
theorem Fates.note_done {m₀ : Removal} (hf : Fates stored d apart) (hmem : m₀ ∈ d.removals)
    (htask : m₀.task = t) (honce : (d.removals.map (·.task)).Nodup)
    (hs : ∀ g ∈ d.snapshot, g ≠ m₀.registration → (g.stored ∈ stored' ↔ g.stored ∈ stored))
    (hwas : m₀.registration.stored ∈ stored) (hgone : m₀.registration.stored ∉ stored') :
    Fates stored' (d.note t .done) apart := by
  refine hf.note hmem htask honce hs ?_
  have hin : m₀.registration ∈ d.snapshot := List.mem_append_left _ (List.mem_map_of_mem hmem)
  cases hf.fate _ hin with
  | owed hs₀ hnot hm =>
    exact .takenBack hgone hnot
      ⟨_, Drain.mem_removals_note_iff.2 (.inr ⟨m₀, hmem, htask, rfl⟩), rfl, rfl⟩
  | takenBack hs₀ hnot hm => exact absurd hwas hs₀
  | takenAway hs₀ ha hm => exact absurd hwas hs₀

/-- **A removal that fails**, as there is no such record, is of a registration that was taken away. -/
theorem Fates.note_failed {m₀ : Removal} {failure : Failure} (hf : Fates stored d apart)
    (hmem : m₀ ∈ d.removals) (htask : m₀.task = t) (honce : (d.removals.map (·.task)).Nodup)
    (hopen : m₀.outcome = none) (hwas : m₀.registration.stored ∉ stored) :
    Fates stored (d.note t (.failed failure)) apart := by
  refine hf.note hmem htask honce (fun _ _ _ => Iff.rfl) ?_
  have hin : m₀.registration ∈ d.snapshot := List.mem_append_left _ (List.mem_map_of_mem hmem)
  cases hf.fate _ hin with
  | owed hs₀ hnot hm => exact absurd hs₀ hwas
  | takenBack hs₀ hnot hm =>
    -- a registration is taken up once, and its removal has not ended yet
    obtain ⟨m, hm, hmg, ho⟩ := hm
    obtain rfl := hf.eq_of_registration hm hmem hmg
    rw [hopen] at ho
    cases ho
  | takenAway hs₀ ha hm =>
    refine .takenAway hwas ha fun m hmnote hmg => ?_
    rcases Drain.mem_removals_note_iff.1 hmnote with ⟨hmold, -⟩ | ⟨m₁, -, -, rfl⟩
    · exact hm m hmold hmg
    · simp

/-- **A record goes by another call**: its registration was taken away, and nothing else. -/
theorem Fates.takenApart (hf : Fates stored d apart)
    (hs : ∀ g' ∈ d.snapshot, g' ≠ g → (g'.stored ∈ stored' ↔ g'.stored ∈ stored))
    (hwas : g.stored ∈ stored) (hgone : g.stored ∉ stored')
    (hnew : ∀ g', apart' g' ↔ apart g' ∨ g' = g ∧ g ∈ d.snapshot) : Fates stored' d apart' := by
  refine ⟨hf.nodup, fun g' hg' => ?_, fun g' hg' => ?_⟩
  · rcases (hnew g').1 hg' with hold | ⟨rfl, hin⟩
    · exact hf.known g' hold
    · exact hin
  · by_cases hsame : g' = g
    · subst hsame
      cases hf.fate g' hg' with
      | owed hs₀ hnot hm =>
        refine .takenAway hgone ((hnew g').2 (.inr ⟨rfl, hg'⟩)) fun m hmem hmg => ?_
        rw [hm m hmem hmg]
        simp
      | takenBack hs₀ hnot hm => exact absurd hwas hs₀
      | takenAway hs₀ ha hm => exact absurd hwas hs₀
    · refine (hf.fate g' hg').congr (hs g' hg' hsame) ?_ fun _ _ => Iff.rfl
      rw [hnew]
      exact or_iff_left fun hboth => hsame hboth.1

/-! ## The close -/

/-- **Where the close of task `c` stands** with the fates of what it takes back. -/
inductive Reckons (l : LocalPublisher) (c : Nat) (apart : Registration → Prop) : Prop
  /-- It waits until nothing is reserved. -/
  | waits (hc : l.publisher.stage? c = some (.waiting .unpublishing)) (hnone : ∀ g, ¬ apart g)
  /-- It takes back what was live. -/
  | takesBack (d : Drain) (hc : l.publisher.stage? c = some (.draining d))
      (hf : Fates l.memory.stored d apart)
  /-- It is over, and no record is left. -/
  | isOver (d : Drain) (hc : l.publisher.stage? c = some (.ended d.outcome))
      (hd : d.isComplete = true)
      (hends : ∀ m ∈ d.removals, ∀ o, m.outcome = some o → o = .done ∨ ∃ failure, o = .failed failure)
      (hf : Fates l.memory.stored d apart) (hnil : l.memory.stored = [])

theorem Reckons.congr (hr : l.Reckons c apart) (ha : ∀ g, apart' g ↔ apart g) :
    l.Reckons c apart' := by
  have hsame : apart' = apart := funext fun g => propext (ha g)
  rwa [hsame]

theorem Shutdown.mirrored (hs : l.Shutdown c)
    (hc : l.publisher.stage? c = some (.waiting .unpublishing)) : l.Mirrored := by
  cases hs with
  | waits hc' hsole hmirror => exact hmirror
  | takesBack d hc' | isOver d hc' =>
    rw [hc] at hc'
    cases hc'

theorem Shutdown.owes (hs : l.Shutdown c) (hc : l.publisher.stage? c = some (.draining d)) :
    l.Owes d := by
  cases hs with
  | takesBack d' hc' hsole hmirror howes =>
    rw [hc] at hc'
    cases hc'
    exact howes
  | waits hc' | isOver d' hc' =>
    rw [hc] at hc'
    cases hc'

theorem Reckons.ask (hr : l.Reckons c apart) (request : Request) :
    Reckons { l with publisher := l.publisher.ask request } c apart := by
  cases hr with
  | waits hc hnone => exact .waits (stage?_ask_of_some request hc) hnone
  | takesBack d hc hf => exact .takesBack d (stage?_ask_of_some request hc) hf
  | isOver d hc hd hends hf hnil => exact .isOver d (stage?_ask_of_some request hc) hd hends hf hnil

/-- **A step** changes no fate. -/
theorem Reckons.step {q : Publisher} (hr : l.Reckons c apart) (hs : l.Shutdown c) (h : l.Sane)
    (hstep : Step t l.publisher q) : Reckons { l with publisher := q } c apart := by
  cases hr with
  | waits hc hnone =>
    have hmirror := hs.mirrored hc
    rcases h.owned.waiting_cases hstep hc with
      ⟨hwait, -⟩ | ⟨-, -, -, ⟨hnil, hended, -⟩ | hdrain⟩
    · exact .waits hwait hnone
    · -- nothing is live, so that nothing is stored
      have hempty : l.memory.stored = [] := by
        refine List.eq_nil_iff_forall_not_mem.2 fun s hmem => ?_
        obtain ⟨g, hlive, -⟩ := hmirror.live_of_stored h hmem
        rw [Registrar.registrations_eq_nil_iff.1 hnil] at hlive
        cases hlive
      have hfates := hmirror.fates h hnone
      rw [hnil] at hfates
      exact .isOver { rest := [] } hended rfl (by simp) hfates hempty
    · exact .takesBack _ hdrain (hmirror.fates h hnone)
  | takesBack d hc hf =>
    rcases h.owned.draining_step h.called hstep hc with ⟨hc', -⟩ | ⟨g, rest, hrest, -, hc'⟩
    · exact .takesBack d hc' hf
    · exact .takesBack _ hc' (hf.take hrest)
  | isOver d hc hd hends hf hnil =>
    exact .isOver d (h.owned.sound.stage?_step_of_still hstep hc trivial) hd hends hf hnil

theorem Reckons.steps {q : Publisher} (hr : l.Reckons c apart) (hs : l.Shutdown c) (h : l.Sane)
    (hsteps : ReflTransGen (Step t) l.publisher q) :
    Reckons { l with publisher := q } c apart := by
  induction hsteps with
  | refl => exact hr
  | tail hsteps hstep ih =>
    have heffects := effects_of_steps hsteps
    exact ih.step (hs.effects h heffects) (h.effects heffects) hstep

/-- **A teardown that is complete** has left no record behind. -/
theorem Fates.nothing_left (hf : Fates stored d apart) (hd : d.isComplete = true) (hg : g ∈ d.snapshot) :
    g.stored ∉ stored := by
  obtain ⟨hrest, hall⟩ := Bool.and_eq_true_iff.1 hd
  cases hf.fate g hg with
  | owed hs hnot hm =>
    -- its removal has begun and has not ended
    rw [Drain.snapshot, List.isEmpty_iff.1 hrest, List.append_nil] at hg
    obtain ⟨m, hmem, hmg⟩ := List.mem_map.1 hg
    have hsome := List.all_eq_true.1 hall m hmem
    rw [hm m hmem hmg] at hsome
    cases hsome
  | takenBack hs | takenAway hs => exact hs

/-! ## Calls -/

/-- A call by which no record goes takes nothing away. -/
theorem not_takesApart_of_memory (hsame : (l.call t).memory = l.memory) : ¬ l.TakesApart t c g := by
  intro htakes
  have hafter := htakes.after
  rw [hsame] at hafter
  exact hafter htakes.before

/-- Only a teardown that is under way has something taken away. -/
theorem not_takesApart_of_stage {s : Stage} (hc : l.publisher.stage? c = some s)
    (hno : ∀ d, s ≠ .draining d) : ¬ l.TakesApart t c g := by
  intro htakes
  obtain ⟨d, hd, -⟩ := htakes.teardown
  rw [hc] at hd
  exact hno d (Option.some.inj hd)

/-- What a teardown owes is among what it began with. -/
theorem Owes.mem_snapshot (howes : l.Owes d) (hg : l.publisher.Made g)
    (hs : g.stored ∈ l.memory.stored) : g ∈ d.snapshot := by
  rcases howes g hg hs with hrest | ⟨m, hm, rfl, -⟩
  · exact List.mem_append_right _ hrest
  · exact List.mem_append_left _ (List.mem_map_of_mem hm)

/-- **A removal of the close has ended**: the close goes on, or it is over by it. -/
theorem Reckons.noted (hf : Fates l'.memory.stored d apart)
    (hends : ∀ m ∈ d.removals, ∀ o, m.outcome = some o → o = .done ∨ ∃ failure, o = .failed failure)
    (hstored : ∀ s ∈ l'.memory.stored, ∃ g ∈ d.snapshot, s = g.stored)
    (hc : l'.publisher.stage? c = some (.draining d) ∨
      l'.publisher.stage? c = some (.ended d.outcome) ∧ d.isComplete = true ∧
        l'.publisher.registrar.Bare) : l'.Reckons c apart := by
  rcases hc with hc | ⟨hc, hd, -⟩
  · exact .takesBack d hc hf
  · refine .isOver d hc hd hends hf (List.eq_nil_iff_forall_not_mem.2 fun s hs => ?_)
    obtain ⟨g, hg, rfl⟩ := hstored s hs
    exact hf.nothing_left hd hg hs

/-- **A close that waits** goes on waiting whatever is answered, and has nothing taken away. -/
theorem Reckons.waits_reply (hc : l.publisher.stage? c = some (.waiting .unpublishing))
    (hnone : ∀ g, ¬ apart g) (h : l.Sane) (hreply : Reply t l.publisher (l.call t).publisher) :
    Reckons (l.call t) c fun g => apart g ∨ l.TakesApart t c g := by
  refine .waits (h.owned.sound.stage?_reply hreply hc id id) fun g hg => ?_
  rcases hg with hg | hg
  · exact hnone g hg
  · exact not_takesApart_of_stage hc (by simp) hg

/-- **The answer to a publish** leaves the close waiting. -/
theorem Reckons.published {k : Key} {handle : Handle} {definition : Definition}
    (hr : l.Reckons c apart) (hs : l.Shutdown c) (h : l.Sane)
    (ht : l.publisher.stage? t = some (.publishing k handle definition))
    (hreply : Reply t l.publisher (l.call t).publisher) :
    Reckons (l.call t) c fun g => apart g ∨ l.TakesApart t c g := by
  cases hr with
  | waits hc hnone => exact .waits_reply hc hnone h hreply
  | takesBack d hc hf => exact absurd hc (h.owned.sound.not_draining ht)
  | isOver d hc hd hends hf hnil =>
    cases hs with
    | isOver d' hc' hsole hd' hends' hbare howes => exact absurd hbare.idle (h.owned.sound.not_idle ht)
    | waits hc' | takesBack d' hc' =>
      rw [hc] at hc'
      cases hc'

/-- **The answer to an unpublish whose record was there.** -/
theorem Reckons.removed (hr : l.Reckons c apart) (hs : l.Shutdown c) (h : l.Sane)
    (ht : l.publisher.stage? t = some (.unpublishing g)) (hwas : g.stored ∈ l.memory.stored)
    (he : l.call t = l.removed t g) :
    Reckons (l.call t) c fun g => apart g ∨ l.TakesApart t c g := by
  have hreply : Reply t l.publisher (l.call t).publisher := he ▸ (Answered.remove g ht).reply
  have hmemory : (l.call t).memory = l.memory.without g := by rw [he, LocalPublisher.removed]
  have hgone : g.stored ∉ (l.call t).memory.stored := by
    rw [hmemory]
    exact MemoryRegistry.not_mem_without _ _
  cases hr with
  | waits hc hnone => exact .waits_reply hc hnone h hreply
  | isOver d hc hd hends hf hnil =>
    rw [hnil] at hwas
    cases hwas
  | takesBack d hc hf =>
    have hmade : ∀ g' ∈ d.snapshot, l.publisher.Made g' := fun g' hg' =>
      h.acquainted.mentioned c _ g' hc hg'
    have hothers : ∀ g' ∈ d.snapshot, g' ≠ g →
        (g'.stored ∈ (l.call t).memory.stored ↔ g'.stored ∈ l.memory.stored) := by
      intro g' hg' hne
      rw [hmemory, MemoryRegistry.mem_without]
      refine and_iff_left fun hboth => hne ?_
      exact h.eq_of_id (hmade g' hg') (h.acquainted.mentioned t _ g ht rfl) hboth.2
    rcases h.owned.kin.draining_reply h.owned.sound hreply hc with ⟨hp, hc'⟩ | ⟨g₀, o, hp, -, hended, -, hend⟩
    · refine .takesBack d hc' (hf.takenApart hothers hwas hgone fun g' => or_congr_right ?_)
      constructor
      · rintro ⟨⟨d', hd', hin⟩, -, hunpublishes, -, -⟩
        rw [ht] at hunpublishes
        cases hunpublishes
        rw [hc] at hd'
        cases hd'
        exact ⟨rfl, hin⟩
      · rintro ⟨rfl, hin⟩
        exact ⟨⟨d, hc, hin⟩, hp, ht, hwas, hgone⟩
    · -- the close unpublishes it itself
      have hkept : DrainKept l.publisher c d := h.owned.kin c _ hc
      have hdone : (l.call t).publisher.stage? t = some (.ended .done) := by
        rw [he]
        exact h.owned.sound.ended_finish (by simp) ht _
      obtain rfl : Outcome.done = o := Stage.ended.inj (Option.some.inj (hdone.symm.trans hended))
      obtain ⟨m₀, hm₀, htask, rfl, -⟩ := removal_of_part hkept hp ht
      have hnone : ∀ g', apart g' ∨ l.TakesApart t c g' ↔ apart g' := fun g' =>
        or_iff_left fun htakes => htakes.other hp
      refine (Reckons.noted (hf.note_done hm₀ htask hkept.once hothers hwas hgone)
        (ends_note hkept.ends (.inl rfl)) (fun s hmem => ?_) hend).congr hnone
      have hold : s ∈ l.memory.stored := by
        rw [hmemory] at hmem
        exact MemoryRegistry.without_subset _ _ hmem
      obtain ⟨g', hg', rfl⟩ := h.stored s hold
      rw [Drain.snapshot_note]
      exact ⟨g', (hs.owes hc).mem_snapshot hg' hold, rfl⟩

/-- **The answer to an unpublish whose record was not there.** -/
theorem Reckons.kept {cause : Cause} (hr : l.Reckons c apart) (hs : l.Shutdown c) (h : l.Sane)
    (ht : l.publisher.stage? t = some (.unpublishing g)) (hno : g.stored ∉ l.memory.stored)
    (he : l.call t =
      { l with publisher := l.publisher.finish t (.failed (.remote g.registry g.schema cause)) }) :
    Reckons (l.call t) c fun g => apart g ∨ l.TakesApart t c g := by
  have hmemory : (l.call t).memory = l.memory := by rw [he]
  have hreply : Reply t l.publisher (l.call t).publisher := by
    rw [he]
    exact .keep g cause ht
  suffices hsame : Reckons (l.call t) c apart from
    hsame.congr fun g' => or_iff_left (not_takesApart_of_memory hmemory)
  cases hr with
  | waits hc hnone => exact .waits (h.owned.sound.stage?_reply hreply hc id id) hnone
  | isOver d hc hd hends hf hnil =>
    refine .isOver d (h.owned.sound.stage?_reply hreply hc id id) hd hends ?_ ?_
    · rw [hmemory]
      exact hf
    · rw [hmemory]
      exact hnil
  | takesBack d hc hf =>
    rw [← hmemory] at hf hno
    rcases h.owned.kin.draining_reply h.owned.sound hreply hc with ⟨-, hc'⟩ | ⟨g₀, o, hp, -, hended, -, hend⟩
    · exact .takesBack d hc' hf
    · have hkept : DrainKept l.publisher c d := h.owned.kin c _ hc
      have hfailed : (l.call t).publisher.stage? t =
          some (.ended (.failed (.remote g.registry g.schema cause))) := by
        rw [he]
        exact h.owned.sound.ended_finish rfl ht _
      obtain rfl := Stage.ended.inj (Option.some.inj (hfailed.symm.trans hended))
      obtain ⟨m₀, hm₀, htask, rfl, hopen⟩ := removal_of_part hkept hp ht
      refine Reckons.noted (hf.note_failed hm₀ htask hkept.once hopen hno)
        (ends_note hkept.ends (.inr ⟨_, rfl⟩)) (fun s hmem => ?_) hend
      rw [hmemory] at hmem
      obtain ⟨g', hg', rfl⟩ := h.stored s hmem
      rw [Drain.snapshot_note]
      exact ⟨g', (hs.owes hc).mem_snapshot hg' hmem, rfl⟩

/-- **A call that gets to the registry** gives every registration the fate that is due. -/
theorem Reckons.call (hr : l.Reckons c apart) (hs : l.Shutdown c) (h : l.Sane) (t : Nat) :
    Reckons (l.call t) c fun g => apart g ∨ l.TakesApart t c g := by
  have unmoved : l.call t = l → Reckons (l.call t) c fun g => apart g ∨ l.TakesApart t c g := by
    intro he
    have hnot : ∀ g, ¬ l.TakesApart t c g := fun g => not_takesApart_of_memory (by rw [he])
    rw [he]
    exact hr.congr fun g => or_iff_left (hnot g)
  rcases l.call_answered t with he | ha
  · exact unmoved he
  · rcases hst : l.publisher.stage? t with _ | s
    · exact unmoved (by rw [LocalPublisher.call, hst])
    · cases s with
      | publishing k handle definition => exact hr.published hs h hst ha.reply
      | unpublishing g =>
        rcases h.call_unpublishing hst with ⟨hwas, he⟩ | ⟨hno, cause, he⟩
        · exact hr.removed hs h hst hwas he
        · exact hr.kept hs h hst hno he
      | _ => exact unmoved (by rw [LocalPublisher.call, hst])

/-! ## Runs -/

/-- **A move** gives every registration the fate that is due. -/
theorem Reckons.move (hr : l.Reckons c apart) (hs : l.Shutdown c) (h : l.Sane) (hm : l.Allows m)
    (harrives : m.Arrives) :
    Reckons (l.move m) c fun g => apart g ∨ ∃ t, m = .call t ∧ l.TakesApart t c g := by
  cases m with
  | call t =>
    refine (hr.call hs h t).congr fun g => or_congr_right ?_
    constructor
    · rintro ⟨t', ht', htakes⟩
      cases ht'
      exact htakes
    · exact fun htakes => ⟨t, rfl, htakes⟩
  | apart m =>
    suffices hsame : Reckons (l.move (.apart m)) c apart by
      refine hsame.congr fun g => or_iff_left ?_
      rintro ⟨t, ht, -⟩
      cases ht
    cases m with
    | ask request => exact hr.ask request
    | abandon t => exact hr.steps hs h (abandon_steps l.publisher t)
    | run t => exact hr.steps hs h (run_steps l.publisher t)
    | answerPublish | answerUnpublish => exact harrives.elim
    | reserve | drop | register | unregister | newHandle | handleFor => cases hm

/-- **A turn that closes the registrar** begins the close, from which nothing was taken away. -/
theorem Sane.reckons_of_open {q : Publisher} (h : l.Sane)
    (hopen : l.publisher.registrar.closed = false) (hmirror : l.Mirrored)
    (hsteps : ReflTransGen (Step t) l.publisher q) (hclosed : q.registrar.closed = true)
    (hnone : ∀ g, ¬ apart g) : Reckons { l with publisher := q } t apart := by
  induction hsteps with
  | refl =>
    rw [hopen] at hclosed
    cases hclosed
  | @tail q q' hsteps hstep ih =>
    have hsane : Sane { l with publisher := q } := h.effects (effects_of_steps hsteps)
    rcases h.open_steps hopen hmirror hsteps with ⟨hstill, -, -⟩ | ⟨-, hshut⟩
    · rcases hsane.owned.close_step hstep hstill with hstill' | ⟨-, hwait, -⟩
      · rw [hstill'] at hclosed
        cases hclosed
      · exact .waits hwait hnone
    · exact (ih (hshut.closed hsane)).step hshut hsane hstep

/-- While the registrar is open nothing is taken away from a teardown. -/
theorem not_takenApart_of_open (hstart : start.Sane) (hms : start.AllowsAll ms)
    (hopen : (start.moves ms).publisher.registrar.closed = false) : ¬ TakenApart start ms c g := by
  rintro ⟨past, t, future, rfl, htakes⟩
  obtain ⟨d, hd, -⟩ := htakes.teardown
  obtain ⟨hpast, hfuture⟩ := allowsAll_append.1 hms
  have hsane := sane_moves hstart hpast
  have hclosed := closed_moves hsane hfuture (hsane.owned.sound.fits c _ hd).1
  rw [← moves_append, hopen] at hclosed
  cases hclosed

/-- **Every registration has its fate** at any time of a run in which a task has closed the
registrar. -/
theorem reckons_moves (base : Option String) (id : String) (listening : Bool) (limit : Option Nat)
    (hms : (fresh base id listening limit).AllowsAll ms) (harrives : ∀ m ∈ ms, m.Arrives)
    (hby : ClosedBy (fresh base id listening limit) ms c) :
    Reckons ((fresh base id listening limit).moves ms) c
      (TakenApart (fresh base id listening limit) ms c) := by
  have hfresh := sane_fresh base id listening limit
  induction ms using List.reverseRecOn generalizing c with
  | nil =>
    obtain ⟨past, future, hsplit, -⟩ := hby
    simp at hsplit
  | append_singleton ms m ih =>
    obtain ⟨hpast, hm⟩ := allowsAll_concat.1 hms
    have hsane := sane_moves hfresh hpast
    have hmoves : (fresh base id listening limit).moves (ms ++ [m]) =
        ((fresh base id listening limit).moves ms).move m := moves_concat ..
    cases standing_moves base id listening limit hpast with
    | isOpen hopen hmirror =>
      -- the last move is the turn in which the registrar is closed
      obtain ⟨past, future, hsplit, -, -, hclosed⟩ := hby
      rcases List.eq_nil_or_concat future with rfl | ⟨future', m', rfl⟩
      · obtain ⟨rfl, hlast⟩ := List.append_inj' hsplit rfl
        obtain rfl : m = .apart (.run c) := (List.cons.inj hlast).1
        rw [hmoves] at hclosed ⊢
        refine hsane.reckons_of_open hopen hmirror (run_steps _ c) hclosed fun g htaken => ?_
        rcases takenApart_concat.1 htaken with hold | ⟨t, ht, -⟩
        · exact not_takenApart_of_open hfresh hpast hopen hold
        · cases ht
      · have hconcat : ms ++ [m] = (past ++ .apart (.run c) :: future') ++ [m'] := by
          rw [hsplit, List.concat_eq_append, List.append_assoc, List.cons_append]
        obtain ⟨rfl, -⟩ := List.append_inj' hconcat rfl
        rw [List.append_cons] at hpast hopen
        obtain ⟨hfirst, hrest⟩ := allowsAll_append.1 hpast
        rw [moves_append, closed_moves (sane_moves hfresh hfirst) hrest hclosed] at hopen
        cases hopen
    | isClosed c' hby' hshut =>
      obtain rfl : c = c' := hby.eq (hby'.concat m) hfresh hms
      have hr := ih hpast (fun m' hm' => harrives m' (List.mem_append_left _ hm')) hby'
      rw [hmoves]
      exact (hr.move hshut hsane hm (harrives m (by simp))).congr fun g => takenApart_concat

/-! ## The report -/

/-- The failures of a teardown are those of its removals. -/
theorem mem_parts_iff {part : Part Failure} : part ∈ d.removals.filterMap Removal.part? ↔
    ∃ m ∈ d.removals, ∃ failure, m.outcome = some (.failed failure) ∧
      part = ⟨m.registration.schema, m.registration.registry, failure⟩ := by
  rw [List.mem_filterMap]
  constructor
  · rintro ⟨m, hm, hpart⟩
    unfold Removal.part? at hpart
    split at hpart
    · rename_i failure ho
      exact ⟨m, hm, failure, ho, (Option.some.inj hpart).symm⟩
    · cases hpart
  · rintro ⟨m, hm, failure, ho, rfl⟩
    refine ⟨m, hm, ?_⟩
    rw [Removal.part?, ho]

/-- **What has failed is what was taken away**, when a teardown is complete. -/
theorem Fates.failed_iff (hf : Fates stored d apart) (hd : d.isComplete = true)
    (hends : ∀ m ∈ d.removals, ∀ o, m.outcome = some o → o = .done ∨ ∃ failure, o = .failed failure)
    {m : Removal} (hm : m ∈ d.removals) :
    (∃ failure, m.outcome = some (.failed failure)) ↔ apart m.registration := by
  have hin : m.registration ∈ d.snapshot := List.mem_append_left _ (List.mem_map_of_mem hm)
  constructor
  · rintro ⟨failure, ho⟩
    cases hf.fate _ hin with
    | owed hs hnot hnone =>
      rw [hnone m hm rfl] at ho
      cases ho
    | takenBack hs hnot hdone =>
      obtain ⟨m', hm', hmg, ho'⟩ := hdone
      rw [hf.eq_of_registration hm' hm hmg, ho] at ho'
      cases ho'
    | takenAway hs ha hno => exact ha
  · intro ha
    obtain ⟨o, ho⟩ := Option.isSome_iff_exists.1
      (List.all_eq_true.1 (Bool.and_eq_true_iff.1 hd).2 m hm)
    cases hf.fate _ hin with
    | owed hs hnot | takenBack hs hnot => exact absurd ha hnot
    | takenAway hs ha hno =>
      rcases hends m hm o ho with rfl | ⟨failure, rfl⟩
      · exact absurd ho (hno m hm rfl)
      · exact ⟨failure, ho⟩

/-- What was taken away from a complete teardown is one of its removals. -/
theorem Fates.removal_of_apart (hf : Fates stored d apart) (hd : d.isComplete = true) (ha : apart g) :
    ∃ m ∈ d.removals, m.registration = g := by
  have hin := hf.known g ha
  rw [← registrations_of_isComplete hd] at hin
  exact List.mem_map.1 hin

/-- **What a close reports** when it has ended. -/
structure Reports (start : LocalPublisher) (ms : List LocalMove) (c : Nat) (outcome : Outcome) :
    Prop where
  /-- No record is left. -/
  nothing : (start.moves ms).memory.stored = []
  /-- It has succeeded if nothing was taken away from it, and only then. -/
  success : outcome = .done ↔ ∀ g, ¬ TakenApart start ms c g
  /-- Otherwise it names what was taken away from it, and nothing else. -/
  failures : outcome = .done ∨ ∃ n parts, outcome = .failed (.partialUnpublish n parts) ∧
    (∀ part ∈ parts, ∃ g, TakenApart start ms c g ∧
      part.schema = g.schema ∧ part.registry = g.registry) ∧
    ∀ g, TakenApart start ms c g →
      ∃ part ∈ parts, part.schema = g.schema ∧ part.registry = g.registry

/-- **A close reports what others took away from it.** In every run in which all calls get to the
registry, whatever order they get there in, a close that has ended has left no record behind, and each
failure that it reports is of a registration whose record another unpublish took away while the close
was taking it back. -/
theorem reports_moves (base : Option String) (id : String) (listening : Bool) (limit : Option Nat)
    (ms : List LocalMove) (hms : (fresh base id listening limit).AllowsAll ms)
    (harrives : ∀ m ∈ ms, m.Arrives) (c : Nat) (outcome : Outcome)
    (hby : ClosedBy (fresh base id listening limit) ms c)
    (hout : ((fresh base id listening limit).moves ms).publisher.outcome? c = some outcome) :
    Reports (fresh base id listening limit) ms c outcome := by
  rw [outcome?_eq_some_iff] at hout
  cases reckons_moves base id listening limit hms harrives hby with
  | waits hc hnone =>
    rw [hout] at hc
    cases hc
  | takesBack d hc hf =>
    rw [hout] at hc
    cases hc
  | isOver d hc hd hends hf hnil =>
    obtain rfl := Stage.ended.inj (Option.some.inj (hout.symm.trans hc))
    have hnamed : ∀ part ∈ d.removals.filterMap Removal.part?, ∃ g,
        TakenApart (fresh base id listening limit) ms c g ∧
          part.schema = g.schema ∧ part.registry = g.registry := by
      intro part hpart
      obtain ⟨m, hm, failure, ho, rfl⟩ := mem_parts_iff.1 hpart
      exact ⟨m.registration, (hf.failed_iff hd hends hm).1 ⟨failure, ho⟩, rfl, rfl⟩
    have hlisted : ∀ g, TakenApart (fresh base id listening limit) ms c g →
        ∃ part ∈ d.removals.filterMap Removal.part?,
          part.schema = g.schema ∧ part.registry = g.registry := by
      intro g hg
      obtain ⟨m, hm, rfl⟩ := hf.removal_of_apart hd hg
      obtain ⟨failure, ho⟩ := (hf.failed_iff hd hends hm).2 hg
      exact ⟨_, mem_parts_iff.2 ⟨m, hm, failure, ho, rfl⟩, rfl, rfl⟩
    unfold Drain.outcome Outcome.ofRemovals
    by_cases hparts : (d.removals.filterMap Removal.part?).isEmpty
    · rw [if_pos hparts]
      have hempty := List.isEmpty_iff.1 hparts
      refine ⟨hnil, ⟨fun _ g hg => ?_, fun _ => rfl⟩, .inl rfl⟩
      obtain ⟨part, hpart, -⟩ := hlisted g hg
      rw [hempty] at hpart
      cases hpart
    · rw [if_neg hparts]
      refine ⟨hnil, ⟨fun he => (by cases he), fun hnone => ?_⟩, .inr ⟨_, _, rfl, hnamed, hlisted⟩⟩
      obtain ⟨part, hpart⟩ := List.exists_mem_of_ne_nil _ fun he => hparts (List.isEmpty_iff.2 he)
      obtain ⟨g, hg, -⟩ := hnamed part hpart
      exact absurd hg (hnone g)

/-- A schema is published. -/
def publishedOne : List LocalMove :=
  [.apart (.ask (.publish { name := "r" } { schema := ⟨"s", "1"⟩ })), .apart (.run 0), .call 0]

/-- Its registration. -/
def registeredOne : Registration :=
  ((((fresh none "id" true none).moves publishedOne).publisher.outcome? 0).bind
    Outcome.registration?).getD default

/-- Its unpublish is under way when a close takes it up too, and gets to the registry first. -/
def removedTwice : List LocalMove :=
  publishedOne ++ [.apart (.ask (.unpublish registeredOne)), .apart (.run 1),
    .apart (.ask (.close .unpublishing)), .apart (.run 2), .apart (.run 2), .call 1, .call 3]

theorem allowsAll_removedTwice : (fresh none "id" true none).AllowsAll removedTwice :=
  ⟨rfl, rfl, trivial, ⟨0, by rfl⟩, rfl, rfl, rfl, rfl, trivial, trivial, trivial⟩

theorem arrives_removedTwice : ∀ m ∈ removedTwice, m.Arrives := by
  simp [removedTwice, publishedOne, LocalMove.Arrives]

theorem closedBy_removedTwice : ClosedBy (fresh none "id" true none) removedTwice 2 :=
  ⟨publishedOne ++ [.apart (.ask (.unpublish registeredOne)), .apart (.run 1),
    .apart (.ask (.close .unpublishing))], [.apart (.run 2), .call 1, .call 3], rfl, by rfl, by rfl,
    by decide +kernel⟩

theorem reports_removedTwice :
    ∃ outcome, ((fresh none "id" true none).moves removedTwice).publisher.outcome? 2 = some outcome ∧
      Reports (fresh none "id" true none) removedTwice 2 outcome := by
  obtain ⟨outcome, hout⟩ : ∃ outcome,
      ((fresh none "id" true none).moves removedTwice).publisher.outcome? 2 = some outcome :=
    Option.isSome_iff_exists.1 (by decide +kernel)
  exact ⟨outcome, hout, reports_moves none "id" true none removedTwice allowsAll_removedTwice
    arrives_removedTwice 2 outcome closedBy_removedTwice hout⟩

/-- The text of the failure that a task ended with, if it failed. -/
def failureText? (l : LocalPublisher) (t : Nat) : Option String :=
  match l.publisher.outcome? t with
  | some (.failed failure) => some failure.message
  | _ => none

/-- **A failure without a record**: all calls got to the registry and nothing is stored any more, and
yet the close has failed and names a schema. -/
theorem failed_removedTwice :
    (fresh none "id" true none).AllowsAll removedTwice ∧ (∀ m ∈ removedTwice, m.Arrives) ∧
      ClosedBy (fresh none "id" true none) removedTwice 2 ∧
      ((fresh none "id" true none).moves removedTwice).failureText? 2 =
        some "Unpublished 0 of 1 schemas; failed: s" ∧
      ((fresh none "id" true none).moves removedTwice).memory.stored.length = 0 :=
  ⟨allowsAll_removedTwice, arrives_removedTwice, closedBy_removedTwice, by decide +kernel,
    by decide +kernel⟩

end LocalPublisher
end SchemaHerald
