import SchemaHerald.CommandLine.Perform
import SchemaHerald.Proofs.CloseSessions
import SchemaHerald.Proofs.PreparedJobs

/-!
# What comes of the command `publish`

A job is a batch and a close after it, unless the batch breaks off. `Job.Goes` and `Job.Stops` say how
a job may go, whatever order the turns of tasks and the calls to the registry come in; the session that
`Job.run` leaves is one such way (`Job.run_cases`). Wherever there is a close, it succeeds and leaves
nothing behind, and the batch is registered exactly if it is acceptable. Together with what can be
prepared this decides the exit code: `Ending` are the ways in which the command may end, and
`Ending.verdict` says what all of them have in common.
-/
namespace SchemaHerald.CommandLine

namespace Job

variable (j : Job)

/-! ## How a job may go -/

/-- The publisher of a job with its registry, before anything has happened. -/
def begun : LocalPublisher := .fresh j.memory.baseUrl j.publisher false j.limit

/-- The publisher after the batch was asked for and `first` has happened. -/
def published (first : List LocalMove) : LocalPublisher :=
  j.begun.moves (.apart (.ask (.publishAll j.options j.definitions)) :: first)

/-- The publisher after the close was asked for as well and `later` has happened. -/
def closed (first later : List LocalMove) : LocalPublisher :=
  j.begun.moves (LocalPublisher.course j.options j.definitions first later)

/-- **How a job may go**: the batch ends in `batch` and the close after it in `last`, whatever order
turns and calls come in. -/
structure Goes (first later : List LocalMove) (batch last : Outcome) : Prop where
  firstTurns : ∀ m ∈ first, m.IsTurn
  laterTurns : ∀ m ∈ later, m.IsTurn
  batchEnds : (j.published first).publisher.outcome? 0 = some batch
  closeEnds : (j.closed first later).publisher.outcome? (j.published first).publisher.tasks.length =
    some last

variable {j} {first later : List LocalMove} {batch last : Outcome}

/-- **How a job may stop**: its batch breaks off, and nothing comes after it. -/
structure Stops (j : Job) (first : List LocalMove) (message : String) : Prop where
  firstTurns : ∀ m ∈ first, m.IsTurn
  batchEnds : (j.published first).publisher.outcome? 0 = some (.broken message)

/-- **The batch of a job** comes to what its limit and its schemas allow. -/
theorem batchEnd_published (hfirst : ∀ m ∈ first, m.IsTurn)
    (hbatch : (j.published first).publisher.outcome? 0 = some batch) :
    BatchEnd j.limit j.options j.definitions batch :=
  LocalPublisher.batchEnd_of_turns j.memory.baseUrl j.publisher false j.limit j.options j.definitions
    hfirst hbatch

/-- **The close of a job** succeeds: nothing is stored, nothing is live, and there are no handles. -/
theorem Goes.done (h : j.Goes first later batch last) :
    last = .done ∧ (j.closed first later).memory.stored = [] ∧
      (j.closed first later).publisher.registrar.Bare :=
  LocalPublisher.done_of_turns j.memory.baseUrl j.publisher false j.limit j.options j.definitions
    h.firstTurns h.laterTurns rfl h.closeEnds

/-- **What can be said of a job's publisher** between the batch and the close. -/
theorem batching_published (h : ∀ m ∈ first, m.IsTurn) :
    LocalPublisher.Batching j.definitions.length (j.published first) ∧
      (j.published first).publisher.registrar.closed = false := by
  have hstart := LocalPublisher.batching_ask j.memory.baseUrl j.publisher false j.limit j.options
    j.definitions
  have hopen := LocalPublisher.open_of_turns hstart.sane h rfl
    fun u td hu => hstart.one.stages u _ hu
  exact ⟨(hstart.turns h).1, hopen⟩

/-- **The batch of a job's session** ends, and then there is nothing left to do. -/
theorem publish_settles (hmemory : j.memory = { baseUrl := j.memory.baseUrl }) :
    ∃ first batch, (∀ m ∈ first, m.IsTurn) ∧ j.publish.1 = some batch ∧
      j.publish.2.toLocal = j.published first ∧ j.publish.2.sleepers = [] ∧
      (j.published first).publisher.ready = [] ∧
      (j.published first).publisher.outcome? 0 = some batch := by
  let asked := j.start.become (j.start.publisher.ask (.publishAll j.options j.definitions))
  have hasked : asked.toLocal =
      j.begun.move (.apart (.ask (.publishAll j.options j.definitions))) := by
    have hbegun : j.start.toLocal = j.begun := congrArg (LocalPublisher.mk _) hmemory
    rw [← hbegun]
    rfl
  have hsane : asked.toLocal.Sane := hasked ▸ (LocalPublisher.batching_ask ..).sane
  obtain ⟨⟨batch, hbatch⟩, hready, -⟩ := Session.settled_batch hasked
  obtain ⟨⟨first, hfirst, hlocal⟩, hsleepers⟩ := Session.settle_turns hsane
  have hawait := Session.await_memory hsane rfl j.start.publisher.tasks.length
    (some (j.timeout * 1000))
  have hpublish : j.publish = (some batch, asked.settle .memory) := by
    have htask : j.start.publisher.tasks.length = 0 := rfl
    simp only [publish, Session.ask]
    rw [hawait, htask, hbatch]
  have hpublished : (asked.settle .memory).toLocal = j.published first := by
    rw [hlocal, hasked]
    rfl
  refine ⟨first, batch, hfirst, ?_⟩
  rw [hpublish, ← hpublished]
  exact ⟨rfl, rfl, hsleepers, hready, hbatch⟩

/-- **The close of a job's session** ends. -/
theorem takeBack_settles {r : Session MemoryRegistry} (hfirst : ∀ m ∈ first, m.IsTurn)
    (hr : r.toLocal = j.published first) (hsleepers : r.sleepers = [])
    (hready : (j.published first).publisher.ready = [])
    (hbatch : (j.published first).publisher.outcome? 0 = some batch) :
    ∃ later last, (∀ m ∈ later, m.IsTurn) ∧ (takeBack r).1 = some last ∧
      (takeBack r).2.toLocal = j.closed first later ∧
      (j.closed first later).publisher.outcome? (j.published first).publisher.tasks.length =
        some last := by
  obtain ⟨hbatching, hopen⟩ := batching_published hfirst
  rw [← hr] at hbatching hopen hready hbatch
  let asked := (r.ask (.close .unpublishing)).2
  have hasked : asked.toLocal = r.toLocal.move (.apart (.ask (.close .unpublishing))) := rfl
  have hsane : asked.toLocal.Sane := hasked ▸ hbatching.sane.move rfl
  -- everything but the close has ended
  obtain ⟨last, hlast⟩ := Session.settled_close hbatching.sane hasked hopen hready
    fun t s ht => hbatching.one.ended hbatching.sane.owned hbatch ht
  obtain ⟨⟨later, hlater, hlocal⟩, -⟩ := Session.settle_turns hsane
  have hawait : asked.await .memory r.publisher.tasks.length = asked.settle .memory :=
    Session.await_memory hsane hsleepers _ none
  have htakeBack : takeBack r = (some last, asked.settle .memory) := by
    show ((asked.await .memory r.publisher.tasks.length).publisher.outcome? _,
      asked.await .memory r.publisher.tasks.length) = _
    rw [hawait]
    exact congrArg (·, _) hlast
  have hclosed : (asked.settle .memory).toLocal = j.closed first later := by
    rw [hlocal, hasked, hr, closed, LocalPublisher.course, LocalPublisher.moves_append]
    rfl
  refine ⟨later, last, hlater, ?_⟩
  rw [htakeBack, ← hclosed, ← hr]
  exact ⟨rfl, rfl, hlast⟩

/-- **A job that stops** leaves nothing in the registry, but its registrar is open. -/
theorem Stops.left {message : String} (h : j.Stops first message) :
    (j.published first).memory.stored = [] ∧
      (j.published first).publisher.registrar.closed = false := by
  have hstart := LocalPublisher.underWay_ask j.memory.baseUrl j.publisher j.limit false j.options
    j.definitions
  exact ⟨(hstart.turns h.firstTurns).stored_of_broken h.batchEnds, (batching_published h.firstTurns).2⟩

/-! ## What a job does -/

theorem run_of_broken {message : String} (h : j.publish.1 = some (.broken message)) :
    j.run = (j.brokenOff (some (.broken message)), j.publish.2) := by
  unfold run
  generalize j.publish = r at h ⊢
  obtain ⟨outcome, session⟩ := r
  cases h
  rfl

theorem run_of_ended (h : j.publish.1 = some batch) (hbatch : ∀ message, batch ≠ .broken message) :
    j.run = (j.conclude (some batch) (takeBack j.publish.2).1, (takeBack j.publish.2).2) := by
  unfold run
  generalize j.publish = r at h ⊢
  obtain ⟨outcome, session⟩ := r
  cases h
  cases batch with
  | broken message => exact absurd rfl (hbatch message)
  | _ => rfl

/-- **The run of a job** is one of the ways in which the job may go. -/
theorem run_cases (hmemory : j.memory = { baseUrl := j.memory.baseUrl }) :
    (∃ first message, j.Stops first message ∧
      j.run.1 = j.brokenOff (some (.broken message)) ∧ j.run.2.toLocal = j.published first) ∨
    (∃ first later batch last, j.Goes first later batch last ∧
      (∀ message, batch ≠ .broken message) ∧
      j.run.1 = j.conclude (some batch) (some last) ∧ j.run.2.toLocal = j.closed first later) := by
  obtain ⟨first, batch, hfirst, hpublish, hlocal, hsleepers, hready, hbatch⟩ :=
    publish_settles hmemory
  by_cases hbroken : ∃ message, batch = .broken message
  · obtain ⟨message, rfl⟩ := hbroken
    have hrun := run_of_broken hpublish
    exact .inl ⟨first, message, ⟨hfirst, hbatch⟩, by rw [hrun], by simp only [hrun, hlocal]⟩
  · have hends : ∀ message, batch ≠ .broken message := fun message he => hbroken ⟨message, he⟩
    obtain ⟨later, last, hlater, htakeBack, hclosed, hlast⟩ :=
      takeBack_settles hfirst hlocal hsleepers hready hbatch
    have hrun := run_of_ended hpublish hends
    rw [htakeBack] at hrun
    exact .inr ⟨first, later, batch, last, ⟨hfirst, hlater, hbatch, hlast⟩, hends, by rw [hrun],
      by simp only [hrun, hclosed]⟩

/-- What a job prints when its schemas are registered and taken back again. -/
def account (j : Job) (gs : List Registration) : String :=
  j.head ++ (String.join (gs.map registrationLine) ++ line s!"\n✅ Published {gs.length} schemas") ++
    line s!"🧹 Unpublished all schemas and closed registry '{j.registry}'"

/-- **The conclusion of a job** whose batch did not break off and whose close succeeded. -/
theorem conclude_done (hend : BatchEnd j.limit j.options j.definitions batch)
    (hbatch : ∀ message, batch ≠ .broken message) :
    ¬ BreaksOff j.limit j.options j.definitions ∧
      ((Acceptable j.options j.definitions ∧ (j.conclude (some batch) (some .done)).exit = 0 ∧
        ∃ gs, (gs.map (·.schema)).Perm (j.definitions.map (·.name)) ∧
          (j.conclude (some batch) (some .done)).out = j.account gs) ∨
      (¬ Acceptable j.options j.definitions ∧ (j.conclude (some batch) (some .done)).exit = 1)) := by
  cases hend with
  | registered gs h hbegins hgs => exact ⟨hbegins, .inl ⟨h, rfl, gs, hgs, rfl⟩⟩
  | failed failure h hbegins => exact ⟨hbegins, .inr ⟨h, rfl⟩⟩
  | broken message => exact absurd rfl (hbatch message)

end Job

/-! ## How publishing may end -/

variable {s : Surroundings} {o : PublishOptions} {home project : Option Settings} {t : Transcript}
  {l : Option LocalPublisher}

/-- **How publishing may end** when there is time for the batch: nothing could be prepared, the job went
its way, whatever order turns and calls came in, or its batch broke off. The publisher is there if there
was a job. -/
inductive Ending (s : Surroundings) (o : PublishOptions) : Transcript → Option LocalPublisher → Prop
  | trouble (trouble : Trouble) (h : Job.prepare s o = .error trouble) :
      Ending s o { exit := 1, out := banner, err := trouble.report } none
  | done (j : Job) (first later : List LocalMove) (batch last : Outcome)
      (h : Job.prepare s o = .ok j) (htime : 1 ≤ j.timeout) (hgoes : j.Goes first later batch last)
      (hbatch : ∀ message, batch ≠ .broken message) :
      Ending s o { j.conclude (some batch) (some last) with
        out := banner ++ (j.conclude (some batch) (some last)).out } (some (j.closed first later))
  | brokenOff (j : Job) (first : List LocalMove) (message : String)
      (h : Job.prepare s o = .ok j) (htime : 1 ≤ j.timeout) (hstops : j.Stops first message) :
      Ending s o { j.brokenOff (some (.broken message)) with
        out := banner ++ (j.brokenOff (some (.broken message))).out } (some (j.published first))

/-- **The command ends** in one of these ways. -/
theorem ending_publish (hhome : s.homeSettings = .ok home)
    (hproject : s.settingsOf (o.project.getD here) = .ok project)
    (htime : 1 ≤ Job.seconds home project) :
    Ending s o (publish s o).1 ((publish s o).2.map Session.toLocal) := by
  unfold publish
  cases hj : Job.prepare s o with
  | error trouble => exact .trouble trouble hj
  | ok j =>
    have htimeout : 1 ≤ j.timeout := by
      rw [((Job.prepared hhome hproject).2 j hj).timeout]
      exact htime
    show Ending s o { j.run.1 with out := banner ++ j.run.1.out } (some j.run.2.toLocal)
    rcases Job.run_cases (Job.memory_of_prepare hj) with
      ⟨first, message, hstops, hrun, hleft⟩ | ⟨first, later, batch, last, hgoes, hbatch, hrun, hleft⟩
    · rw [hrun, hleft]
      exact .brokenOff j first message hj htimeout hstops
    · rw [hrun, hleft]
      exact .done j first later batch last hj htimeout hgoes hbatch

/-- **What can be published**: what is needed for a job is there, the registry has a name that is not
blank, and so have the files, no two of them the same one. -/
structure Publishable (s : Surroundings) (o : PublishOptions) (home project : Option Settings) : Prop
    extends Job.Preparable s o home project where
  registry : Text.isBlankText (Job.registryName s o home project) = false
  named : ∀ name ∈ schemaNames o.files, name ≠ ""
  distinct : (schemaNames o.files).Nodup

/-- **What breaks off**: what is needed for a job is there, and the registry has a name that is not
blank, but there can be no permits for the limit on publishes at once. -/
structure Breaks (s : Surroundings) (o : PublishOptions) (home project : Option Settings) : Prop
    extends Job.Preparable s o home project where
  registry : Text.isBlankText (Job.registryName s o home project) = false
  many : ∃ k, Job.limit? s o home project = some k ∧ Batch.mostPermits < k

section Prepared

variable {j : Job}

theorem Job.Prepared.named_iff (hj : Job.Prepared s o home project j) :
    Text.isBlankText (Job.registryName s o home project) = false ↔ Text.trim j.options.name ≠ "" := by
  rw [hj.name, Text.isBlankText, String.isEmpty_eq_false_iff]

theorem Job.Prepared.some (hj : Job.Prepared s o home project j) (hfiles : o.files ≠ []) :
    j.definitions ≠ [] := by
  rw [← List.length_pos_iff, hj.count, List.length_pos_iff]
  exact hfiles

/-- **A job can be done** if its batch is acceptable. -/
theorem publishable_iff (hj : Job.Prepared s o home project j)
    (hprepare : Job.Preparable s o home project) (hfiles : o.files ≠ []) :
    Publishable s o home project ↔ Acceptable j.options j.definitions := by
  have hnamed : (∀ name ∈ schemaNames o.files, name ≠ "") ↔ ∀ d ∈ j.definitions, d.name ≠ "" := by
    rw [← hj.names, List.forall_mem_map]
  constructor
  · intro h
    exact ⟨hj.named_iff.1 h.registry, hj.some hfiles, hnamed.1 h.named, hj.names ▸ h.distinct⟩
  · intro h
    exact ⟨hprepare, hj.named_iff.2 h.registry, hnamed.2 h.named, hj.names ▸ h.distinct⟩

/-- **A job stops** if its batch breaks off. -/
theorem breaks_iff (hj : Job.Prepared s o home project j)
    (hprepare : Job.Preparable s o home project) (hfiles : o.files ≠ []) :
    Breaks s o home project ↔ BreaksOff j.limit j.options j.definitions := by
  constructor
  · intro h
    exact ⟨hj.named_iff.1 h.registry, hj.some hfiles, hj.limit.symm ▸ h.many⟩
  · intro h
    exact ⟨hprepare, hj.named_iff.2 h.registry, hj.limit ▸ h.many⟩

end Prepared

/-- **What the command comes to**, by what it prints and exits with and by the publisher that it
leaves. -/
structure Verdict (s : Surroundings) (o : PublishOptions) (home project : Option Settings)
    (t : Transcript) (l : Option LocalPublisher) : Prop where
  /-- It succeeds exactly if everything can be published and the batch does not break off. -/
  exit_eq_zero : t.exit = 0 ↔ Publishable s o home project ∧ ¬ Breaks s o home project
  /-- There is one code for failures, -/
  exit_eq_one : t.exit = 1 ↔ ¬ Publishable s o home project ∧ ¬ Breaks s o home project
  /-- and another one for a batch that breaks off. -/
  exit_eq_broken : t.exit = 101 ↔ Breaks s o home project
  /-- On success there is a line for every file, with its name, and they are counted. -/
  listed : t.exit = 0 → ∃ j gs, Job.prepare s o = .ok j ∧ t.out = banner ++ j.account gs ∧
    (gs.map (·.schema)).Perm (schemaNames o.files) ∧ gs.length = o.files.length
  /-- The batch is reached if there is a job. -/
  reached : l.isSome ↔ Job.Preparable s o home project
  /-- Everything has been unpublished by then, and the registrar is closed, -/
  takenBack : ∀ l', l = some l' → ¬ Breaks s o home project →
    l'.memory.stored = [] ∧ l'.publisher.registrar.Bare
  /-- but a batch that breaks off, which has published nothing, leaves the registrar open. -/
  leftOpen : ∀ l', l = some l' → Breaks s o home project →
    l'.memory.stored = [] ∧ l'.publisher.registrar.closed = false

/-- What is said where nothing could be prepared. -/
theorem verdict_of_trouble {trouble : Trouble} (hno : ¬ Job.Preparable s o home project) :
    Verdict s o home project { exit := 1, out := banner, err := trouble.report } none := by
  have hcannot : ¬ Publishable s o home project := fun h => hno h.toPreparable
  have hbegins : ¬ Breaks s o home project := fun h => hno h.toPreparable
  exact {
    exit_eq_zero := iff_of_false Nat.one_ne_zero fun h => hcannot h.1
    exit_eq_one := iff_of_true rfl ⟨hcannot, hbegins⟩
    exit_eq_broken := iff_of_false (by decide : 1 ≠ 101) hbegins
    listed := fun h => absurd h Nat.one_ne_zero
    reached := iff_of_false Bool.false_ne_true hno
    takenBack := fun l' hl => by cases hl
    leftOpen := fun l' hl => by cases hl }

section Verdicts

variable {j : Job} {first later : List LocalMove} {batch last : Outcome} {message : String}

/-- What is said of a job that went its way. -/
theorem Job.Goes.verdict (h : j.Goes first later batch last)
    (hbatch : ∀ message, batch ≠ .broken message) (hj : Job.prepare s o = .ok j)
    (hprepared : Job.Prepared s o home project j) (hyes : Job.Preparable s o home project)
    (hfiles : o.files ≠ []) :
    Verdict s o home project { j.conclude (some batch) (some last) with
      out := banner ++ (j.conclude (some batch) (some last)).out } (some (j.closed first later)) := by
  obtain ⟨rfl, hstored, hbare⟩ := h.done
  obtain ⟨hbegins, hends⟩ := conclude_done (batchEnd_published h.firstTurns h.batchEnds) hbatch
  rw [← breaks_iff hprepared hyes hfiles] at hbegins
  rw [← publishable_iff hprepared hyes hfiles] at hends
  exact {
    exit_eq_zero := by
      rcases hends with ⟨hpub, hexit, -⟩ | ⟨hcannot, hexit⟩
      · exact iff_of_true hexit ⟨hpub, hbegins⟩
      · exact iff_of_false (by rw [hexit]; decide) fun hpub => hcannot hpub.1
    exit_eq_one := by
      rcases hends with ⟨hpub, hexit, -⟩ | ⟨hcannot, hexit⟩
      · exact iff_of_false (by rw [hexit]; decide) fun hno => hno.1 hpub
      · exact iff_of_true hexit ⟨hcannot, hbegins⟩
    exit_eq_broken := by
      refine iff_of_false ?_ hbegins
      rcases hends with ⟨-, hexit, -⟩ | ⟨-, hexit⟩ <;> rw [hexit] <;> decide
    listed := by
      intro hzero
      rcases hends with ⟨-, -, gs, hgs, hout⟩ | ⟨-, hexit⟩
      · refine ⟨j, gs, hj, congrArg (banner ++ ·) hout, hprepared.names ▸ hgs, ?_⟩
        rw [← hprepared.count]
        simpa using hgs.length_eq
      · exact absurd (hexit.symm.trans hzero) Nat.one_ne_zero
    reached := iff_of_true rfl hyes
    takenBack := fun l' hl _ => by
      cases hl
      exact ⟨hstored, hbare⟩
    leftOpen := fun l' _ hbreaks => absurd hbreaks hbegins }

/-- What is said of a job that stopped. -/
theorem Job.Stops.verdict (h : j.Stops first message) (hprepared : Job.Prepared s o home project j)
    (hyes : Job.Preparable s o home project) (hfiles : o.files ≠ []) :
    Verdict s o home project { j.brokenOff (some (.broken message)) with
      out := banner ++ (j.brokenOff (some (.broken message))).out } (some (j.published first)) := by
  have hbreaks : Breaks s o home project := by
    rw [breaks_iff hprepared hyes hfiles]
    cases batchEnd_published h.firstTurns h.batchEnds with
    | broken _ hbreaks => exact hbreaks
  exact {
    exit_eq_zero := iff_of_false (by decide : 101 ≠ 0) fun hpub => hpub.2 hbreaks
    exit_eq_one := iff_of_false (by decide : 101 ≠ 1) fun hno => hno.2 hbreaks
    exit_eq_broken := iff_of_true rfl hbreaks
    listed := fun hzero => absurd hzero (by decide : 101 ≠ 0)
    reached := iff_of_true rfl hyes
    takenBack := fun l' _ hbegins => absurd hbreaks hbegins
    leftOpen := fun l' hl _ => by
      cases hl
      exact h.left }

end Verdicts

/-- **The verdict on an ending.** -/
theorem Ending.verdict (h : Ending s o t l) (hfiles : o.files ≠ [])
    (hhome : s.homeSettings = .ok home)
    (hproject : s.settingsOf (o.project.getD here) = .ok project) :
    Verdict s o home project t l := by
  obtain ⟨hprepare, hprepared⟩ := Job.prepared hhome hproject
  cases h with
  | trouble trouble hj =>
    refine verdict_of_trouble ?_
    rw [← hprepare]
    rintro ⟨j, hj'⟩
    cases hj.symm.trans hj'
  | done j first later batch last hj htime hgoes hbatch =>
    exact hgoes.verdict hbatch hj (hprepared j hj) (hprepare.1 ⟨j, hj⟩) hfiles
  | brokenOff j first message hj htime hstops =>
    exact hstops.verdict (hprepared j hj) (hprepare.1 ⟨j, hj⟩) hfiles

/-- **Publishing succeeds exactly when everything can be published.** For all settings that can be
loaded, all files and variables and all arguments that ask for publishing, when there is time for the
batch: the exit code is zero if the registry's name is not blank, its backend is known, the metadata
and the files can be read and the names of the files are texts, different and not blank, and otherwise
it is one. On success every file is listed once under its name and all are counted. If the batch was
reached, everything has been unpublished in the end and the registrar is closed. All of this holds up to
one exception: a batch that would begin but for whose limit there can be no permits breaks off, and
then the exit code is 101 and the registrar is left open. The same goes for every order of turns and
calls. -/
theorem verdict_publish {arguments : List Text.Raw}
    (hparse : Invocation.ofArguments arguments = .publish o)
    (hhome : s.homeSettings = .ok home)
    (hproject : s.settingsOf (o.project.getD here) = .ok project)
    (htime : 1 ≤ Job.seconds home project) :
    respond s (Invocation.ofArguments arguments) = .done (publish s o).1 ∧
      Verdict s o home project (publish s o).1 ((publish s o).2.map Session.toLocal) ∧
      ∀ t l, Ending s o t l → Verdict s o home project t l := by
  have hverdict : ∀ t l, Ending s o t l → Verdict s o home project t l :=
    fun t l h => h.verdict (files_of_ofArguments hparse) hhome hproject
  refine ⟨?_, hverdict _ _ (ending_publish hhome hproject htime), hverdict⟩
  rw [hparse]
  rfl

/-- Two schemas, and a project whose registry has a backend. -/
def shop : Surroundings where
  look path :=
    if path = ↑"./.schema-publisher.yaml" then
      .text <| "version: \"1.0\"\npublisher: \x7bdefaultRegistry: main\x7d\nregistries:\n" ++
        "  main:\n    backend: \x7bname: Local\x7d\npublish: \x7btimeoutSecs: 5\x7d\n"
    else if path = ↑"a" then .text "type Order"
    else if path = ↑" b" then .text "\x7b\x7d"
    else .absent
  home := none
  env := ∅
  newId := "anonymous"

/-- The settings of the project. -/
def shopSettings : Settings where
  version := "1.0"
  publisher := some { defaultRegistry := some "main" }
  registries := .ofList [("main", { backend := some { name := "Local" } })]
  publish := some { timeoutSecs := some 5 }

/-- Both schemas are to be published. -/
def shopOptions (limit : Option Nat) : PublishOptions where
  files := ["a", " b"]
  metadata := ["team=shop"]
  maxConcurrency := limit

theorem settingsOf_shop : shop.settingsOf here = .ok (some shopSettings) :=
  Surroundings.ok_of_toOption (by decide +kernel)

theorem publishable_shop (limit : Option Nat) :
    Publishable shop (shopOptions limit) none (some shopSettings) := by
  have hnames : schemaNames ["a", " b"] = ["a", "b"] := by decide +kernel
  have hmetadata : ∀ entry ∈ ["team=shop"], '=' ∈ entry.toList := by decide
  have hregistry : Job.registryName shop (shopOptions limit) none (some shopSettings) = "main" := by
    show ((none : Option String).or _).getD _ = _
    decide +kernel
  refine ⟨⟨?_, hmetadata, ?_⟩, ?_, ?_, ?_⟩
  · intro options backend hentry hbackend
    rw [hregistry] at hentry
    have hmain : ((some shopSettings).bind (Settings.described? "main")).or none =
        some { backend := some { name := "Local" } } := by
      decide +kernel
    cases hmain.symm.trans hentry
    cases hbackend
    decide +kernel
  · show ∀ file ∈ ([↑"a", ↑" b"] : List Text.Raw), shop.HasSchema file
    rw [List.forall_mem_cons, List.forall_mem_singleton]
    exact ⟨⟨⟨_, rfl⟩, "a", "a", by decide +kernel, rfl⟩, ⟨_, rfl⟩, " b", " b", by decide +kernel, rfl⟩
  · rw [hregistry]
    decide +kernel
  · show ∀ name ∈ schemaNames ["a", " b"], name ≠ ""
    rw [hnames]
    decide
  · show (schemaNames ["a", " b"]).Nodup
    rw [hnames]
    decide

/-- Both schemas are published and taken back again. -/
theorem verdict_publish_shop :
    ∃ o project, Invocation.ofArguments ["publish", "-m", "team=shop", "a", " b"] = .publish o ∧
      shop.homeSettings = .ok none ∧ shop.settingsOf (o.project.getD here) = .ok project ∧
      1 ≤ Job.seconds none project ∧ Publishable shop o none project ∧
      Verdict shop o none project (publish shop o).1 ((publish shop o).2.map Session.toLocal) ∧
      (publish shop o).1.exit = 0 := by
  have hparse : Invocation.ofArguments ["publish", "-m", "team=shop", "a", " b"] =
      .publish (shopOptions none) := by
    decide +kernel
  have htime : 1 ≤ Job.seconds none (some shopSettings) := by decide
  have hbegins : ¬ Breaks shop (shopOptions none) none (some shopSettings) := by
    rintro ⟨-, -, k, hk, -⟩
    cases hk
  obtain ⟨-, hverdict, -⟩ := verdict_publish hparse rfl settingsOf_shop htime
  exact ⟨shopOptions none, some shopSettings, hparse, rfl, settingsOf_shop, htime,
    publishable_shop none, hverdict, hverdict.exit_eq_zero.2 ⟨publishable_shop none, hbegins⟩⟩

/-- **A limit that there can be no permits for**: everything can be published and there is time for it,
and yet the exit code is 101 and the registrar is left open. -/
theorem publish_tooManyPermits :
    ∃ o project, Invocation.ofArguments ["publish", "-m", "team=shop", "--max-concurrency",
        "2305843009213693952", "a", " b"] = .publish o ∧
      shop.homeSettings = .ok none ∧ shop.settingsOf (o.project.getD here) = .ok project ∧
      1 ≤ Job.seconds none project ∧ Publishable shop o none project ∧
      (publish shop o).1.exit = 101 ∧
      ∃ session, (publish shop o).2 = some session ∧ session.publisher.registrar.closed = false := by
  let o := shopOptions (some (Batch.mostPermits + 1))
  have hparse : Invocation.ofArguments ["publish", "-m", "team=shop", "--max-concurrency",
      "2305843009213693952", "a", " b"] = .publish o := by
    decide +kernel
  have hpublishable : Publishable shop o none (some shopSettings) := publishable_shop _
  have hbreaks : Breaks shop o none (some shopSettings) :=
    ⟨hpublishable.toPreparable, hpublishable.registry, Batch.mostPermits + 1, rfl,
      Nat.lt_succ_self Batch.mostPermits⟩
  have hhome : shop.homeSettings = .ok none := rfl
  have hproject : shop.settingsOf (o.project.getD here) = .ok (some shopSettings) := settingsOf_shop
  have htime : 1 ≤ Job.seconds none (some shopSettings) := by decide
  have hverdict := (ending_publish hhome hproject htime).verdict (files_of_ofArguments hparse) hhome
    hproject
  obtain ⟨l, hl⟩ := Option.isSome_iff_exists.1 (hverdict.reached.2 hpublishable.toPreparable)
  obtain ⟨session, hsession, rfl⟩ := Option.map_eq_some_iff.1 hl
  exact ⟨o, some shopSettings, hparse, hhome, hproject, htime, hpublishable,
    hverdict.exit_eq_broken.2 hbreaks, session, hsession, (hverdict.leftOpen _ hl hbreaks).2⟩

end SchemaHerald.CommandLine
