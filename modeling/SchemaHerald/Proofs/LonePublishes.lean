import SchemaHerald.Proofs.AnyAnswers

/-!
# One publish by itself

A publish that is a part of nothing has a turn, in which it is refused or has the registry called, and
then the answer to its call. `Alone` says where it stands in between, on the way to the verdict on its
schema, and is kept by its turns and by any answers (`Alone.any`). A schema whose key is free is
registered if the answer is a record (`Regular.succeeds_publish`).
-/
namespace SchemaHerald.Publisher

variable {p q : Publisher} {c n : Nat} {w : Circumstances} {d : Definition} {o : RegistryOptions}
  {ms : List Move} {out : Outcome}

/-- Nobody gets a turn by the beginning of a publish that is a part of nothing. -/
theorem ready_beginPublish (hparent : p.parent? c = none) (o : RegistryOptions) (d : Definition) :
    (p.beginPublish c o d).ready = p.ready := by
  unfold Publisher.beginPublish
  split
  · rw [finish_of_orphan hparent, ready_setStage]
  · split
    · rw [finish_of_orphan hparent, ready_setStage]
    · split
      · rw [finish_of_orphan hparent, ready_setStage]
      · rfl

/-- **A publish by itself**, of task `c`, has been asked for, has had the registry called or has ended, and
is on the way to the verdict on its schema. -/
structure Alone (w : Circumstances) (o : RegistryOptions) (d : Definition) (c : Nat) (p : Publisher) :
    Prop where
  sound : p.Sound
  tracks : Tracks w [d] c p
  parent : p.parent? c = none
  stands : (p.stage? c = some (.asked (.publish o d)) ∧ c ∈ p.ready) ∨
    (∃ k handle d', p.stage? c = some (.publishing k handle d')) ∨
    ∃ out, p.stage? c = some (.ended out)

theorem nodup_name (d : Definition) : ([d].map (·.name)).Nodup := by simp

/-- Only the stage and the turns matter to what may still happen to a task. -/
theorem effort_singleton {s : Stage} (hs : p.stage? c = some s) :
    p.effort [c] = s.effort + p.ready.length := by
  simp [effort, hs]

/-- A task that waits for an answer, or has ended, only loses its turn. -/
theorem run_of_settled {s : Stage} (hs : p.stage? c = some s) (hready : c ∈ p.ready)
    (hsettled : (∃ k handle d', s = .publishing k handle d') ∨ ∃ out, s = .ended out) :
    p.run c = { p with ready := p.ready.erase c } := by
  obtain ⟨parent, htask⟩ := stage?_eq_some_iff.1 hs
  rcases hsettled with ⟨k, handle, d', rfl⟩ | ⟨out, rfl⟩
  all_goals simp only [Publisher.run, List.contains_iff_mem.2 hready, ite_true, htask]

/-- **The turn of a publish by itself.** -/
theorem Alone.run (h : Alone w o d c p) (hready : c ∈ p.ready) :
    Alone w o d c (p.run c) ∧ (p.run c).effort [c] + 1 ≤ p.effort [c] := by
  have hsound := h.sound.move (.run c)
  have htracks : Tracks w [d] c (p.run c) := h.tracks.run (i := 0) h.sound (nodup_name d) rfl
  have settled : ∀ s, p.stage? c = some s →
      ((∃ k handle d', s = .publishing k handle d') ∨ ∃ out, s = .ended out) →
      Alone w o d c (p.run c) ∧ (p.run c).effort [c] + 1 ≤ p.effort [c] := by
    intro s hs hsettled
    have hrun := run_of_settled hs hready hsettled
    have hstage : ∀ u, (p.run c).stage? u = p.stage? u := fun u => by
      rw [hrun]
      rfl
    refine ⟨⟨hsound, htracks, ?_, .inr ?_⟩, effort_turn hready (by rw [hrun]) fun u _ => hstage u⟩
    · rw [hrun]
      exact h.parent
    · rw [hstage, hs]
      exact hsettled.imp (fun ⟨k, handle, d', he⟩ => ⟨k, handle, d', congrArg some he⟩)
        fun ⟨out, he⟩ => ⟨out, congrArg some he⟩
  rcases h.stands with ⟨hasked, -⟩ | ⟨k, handle, d', hs⟩ | ⟨out, hs⟩
  · have hrun := run_publish hready hasked h.parent
    obtain ⟨hshape, hstage⟩ := beginPublish_spec (p := { p with ready := p.ready.erase c })
      (h.sound.parents.ne_self c) hasked o d
    rw [← hrun] at hshape hstage
    have hready' : (p.run c).ready.length = p.ready.length - 1 := by
      rw [hrun, ready_beginPublish (p := { p with ready := p.ready.erase c }) h.parent,
        ← List.length_erase_of_mem hready]
    have hpos := List.length_pos_of_mem hready
    refine ⟨⟨hsound, htracks, (hshape.2 c).trans h.parent, .inr hstage.symm⟩, ?_⟩
    rw [effort_singleton hasked]
    rcases hstage with ⟨out, hs⟩ | ⟨k, handle, d', hs⟩
    all_goals
      rw [effort_singleton hs, hready']
      simp only [Stage.effort]
      omega
  · exact settled _ hs (.inl ⟨k, handle, d', rfl⟩)
  · exact settled _ hs (.inr ⟨out, rfl⟩)

/-- While the registrar is open the answer to a publish ends it, and gives nobody else a turn before
that. -/
theorem Sound.answerPublish_eq_finish (h : p.Sound) (hopen : p.registrar.closed = false) {k : Key}
    {handle : Handle} {d' : Definition} (hs : p.stage? c = some (.publishing k handle d'))
    (a : Answer) : ∃ (p' : Publisher) (out : Outcome),
      p.answerPublish c a = p'.finish c out ∧ p'.tasks = p.tasks ∧ p'.ready = p.ready := by
  have idle : ∀ r, (p.withRegistrar r).wakeIdle = p.withRegistrar r := fun r =>
    h.wakeIdle_of_open hopen rfl
  unfold answerPublish
  rw [hs]
  cases a with
  | record record =>
    dsimp only
    rw [idle]
    refine ⟨_, _, rfl, ?_, ?_⟩ <;> split <;> rfl
  | refused cause =>
    dsimp only
    rw [idle]
    exact ⟨_, _, rfl, rfl, rfl⟩
  | broken message =>
    dsimp only
    rw [idle]
    exact ⟨_, _, rfl, rfl, rfl⟩

/-- **The answer to a publish by itself** ends it. -/
theorem Alone.answer (h : Alone w o d c p) {k : Key} {handle : Handle} {d' : Definition}
    (hs : p.stage? c = some (.publishing k handle d')) {a : Answer}
    (ha : a.bare = (w.answers handle d').bare) :
    Alone w o d c (p.answerPublish c a) ∧ (p.answerPublish c a).effort [c] + 1 ≤ p.effort [c] := by
  have htracks : Tracks w [d] c (p.answerPublish c a) :=
    h.tracks.answer (i := 0) h.sound (nodup_name d) rfl fun k' handle' d₁ hs' => by
      cases hs.symm.trans hs'
      exact ha
  obtain ⟨p', out, hfinish, htasks, hready⟩ :=
    h.sound.answerPublish_eq_finish h.tracks.isOpen hs a
  have hanswer : p.answerPublish c a = p'.setStage c (.ended out) :=
    hfinish.trans (finish_of_orphan ((parent?_congr htasks c).trans h.parent) out)
  have hended : (p.answerPublish c a).stage? c = some (.ended out) := by
    rw [hanswer]
    exact stage?_setStage_self ((stage?_congr htasks c).trans hs)
  refine ⟨⟨h.sound.move (.answerPublish c a), htracks, ?_, .inr (.inr ⟨out, hended⟩)⟩, ?_⟩
  · rw [hanswer, parent?_setStage, parent?_congr htasks, h.parent]
  · rw [effort_singleton hs, effort_singleton hended, hanswer, ready_setStage, hready]
    simp only [Stage.effort]
    omega

/-- **While it waits for its answer**, that may be any. -/
theorem Alone.reanswer (h : Alone w o d c p) {k : Key} {handle : Handle} {d' : Definition}
    (hs : p.stage? c = some (.publishing k handle d')) (a : Answer) :
    Alone { w with answers := w.answersBut d'.name a } o d c p := by
  refine ⟨h.sound, h.tracks.reanswer fun i d₁ out hd₁ hended => ?_, h.parent, h.stands⟩
  -- there is one task, and it has not ended
  have hi : i < 1 := (List.getElem?_eq_some_iff.1 hd₁).1
  obtain rfl : i = 0 := by omega
  cases hs.symm.trans hended

/-- A move that makes no difference does nothing. -/
theorem Alone.move_eq (h : Alone w o d c p) {m : Move} (hm : m.Within c c) (hno : ¬ m.Counts p) :
    p.move m = p := by
  cases hm with
  | run t hfirst hlast => exact run_of_not_ready hno
  | answer t a hfirst hlast =>
    obtain rfl : t = c := Nat.le_antisymm hlast hfirst
    rcases h.stands with ⟨hs, -⟩ | ⟨k, handle, d', hs⟩ | ⟨out, hs⟩
    · exact answerPublish_of_not_calling hs id a
    · exact absurd ⟨k, handle, d', hs⟩ hno
    · exact answerPublish_of_not_calling hs id a

/-- **A move, with any answer.** -/
theorem Alone.move_any (h : Alone w o d c p) {m : Move} (hm : m.Within c c) :
    ∃ answers, (p.move m).effort [c] ≤ p.effort [c] ∧
      (m.Counts p → (p.move m).effort [c] + 1 ≤ p.effort [c]) ∧
      Alone { w with answers } o d c (p.move m) ∧
      (w.Accepts → m.Accepts → Circumstances.Accepts { w with answers }) := by
  by_cases hcounts : m.Counts p
  · cases hm with
    | run t hfirst hlast =>
      obtain rfl : t = c := Nat.le_antisymm hlast hfirst
      obtain ⟨hran, hle⟩ := h.run hcounts
      exact ⟨w.answers, Nat.le_of_succ_le hle, fun _ => hle, hran, fun haccepts _ => haccepts⟩
    | answer t a hfirst hlast =>
      obtain rfl : t = c := Nat.le_antisymm hlast hfirst
      obtain ⟨k, handle, d', hs⟩ := hcounts
      obtain ⟨hanswered, hle⟩ := (h.reanswer hs a).answer hs (w.bare_answersBut a handle d').symm
      exact ⟨_, Nat.le_of_succ_le hle, fun _ => hle, hanswered, fun haccepts ha =>
        haccepts.but ha _⟩
  · rw [h.move_eq hm hcounts]
    exact ⟨w.answers, le_rfl, fun hcounts' => absurd hcounts' hcounts, h,
      fun haccepts _ => haccepts⟩

/-- **All along a schedule, with any answers.** -/
theorem Alone.any (h : Alone w o d c p) (hms : ∀ m ∈ ms, m.Within c c) :
    ∃ answers, (Busy p ms → ms.length + (p.moves ms).effort [c] ≤ p.effort [c]) ∧
      Alone { w with answers } o d c (p.moves ms) ∧
      (w.Accepts → (∀ m ∈ ms, m.Accepts) → Circumstances.Accepts { w with answers }) := by
  induction ms generalizing p w with
  | nil => exact ⟨w.answers, fun _ => by simp [Publisher.moves], h, fun haccepts _ => haccepts⟩
  | cons m ms ih =>
    obtain ⟨answers, -, hlt, hmoved, haccepts⟩ := h.move_any (hms m List.mem_cons_self)
    obtain ⟨answers', hbusy, halone, haccepts'⟩ :=
      ih hmoved fun m' hm' => hms m' (List.mem_cons_of_mem m hm')
    refine ⟨answers', fun ⟨hcounts, hb⟩ => ?_, halone, fun hw hall => ?_⟩
    · have hone := hlt hcounts
      have hrest := hbusy hb
      show (ms.length + 1) + ((p.move m).moves ms).effort [c] ≤ _
      omega
    · exact haccepts' (haccepts hw (hall m List.mem_cons_self)) fun m' hm' =>
        hall m' (List.mem_cons_of_mem m hm')

/-- **A publish that is asked for now**, after any schedule of it, under the circumstances of now and with
answers that are records if all that came were. -/
theorem Regular.alone_any (h : p.Regular) (hopen : p.registrar.closed = false)
    (hname : Text.trim o.name ≠ "") (hms : ∀ m ∈ ms, m.Within p.tasks.length p.tasks.length) :
    ∃ answers, Alone (p.circumstances o answers) o d p.tasks.length
        ((p.ask (.publish o d)).moves ms) ∧
      (Busy (p.ask (.publish o d)) ms → ms.length ≤ p.ready.length + 4) ∧
      ((∀ m ∈ ms, m.Accepts) → (p.circumstances o answers).Accepts) := by
  have hasked := stage?_ask_new p (.publish o d)
  have htracks : Tracks (p.circumstances o fun _ _ => .record ⟨"", "", none, {}⟩) [d]
      p.tasks.length p := tracks_begin hopen rfl rfl fun i d' s hd' hs => by
    have hlt := lt_length_of_stage? hs
    omega
  have halone : Alone (p.circumstances o fun _ _ => .record ⟨"", "", none, {}⟩) o d p.tasks.length
      (p.ask (.publish o d)) := by
    refine ⟨h.sound.ask _, htracks.ask (i := 0) rfl rfl
      (RegistryOptions.canonical?_eq_ok_iff.2 ⟨hname, rfl⟩), ?_, .inl ⟨hasked, ?_⟩⟩
    · rw [parent?_ask]
      simp [parent?]
    · exact mem_ready_wake.2 (.inr (by simp))
  obtain ⟨answers, hbusy, halone', haccepts⟩ := halone.any hms
  refine ⟨answers, halone', fun hb => ?_, haccepts fun _ _ => ⟨_, rfl⟩⟩
  have hlen := hbusy hb
  have hready : (p.ask (.publish o d)).ready.length ≤ p.ready.length + 1 :=
    length_ready_wake_le _ [p.tasks.length]
  rw [effort_singleton hasked] at hlen
  simp only [Stage.effort] at hlen
  omega

/-- **A publish of a schema whose name is free succeeds** with its registration. -/
theorem Regular.succeeds_publish (h : p.Regular) (hopen : p.registrar.closed = false)
    (hname : Text.trim o.name ≠ "") (hnamed : d.name ≠ "")
    (hfree : p.registrar.slots.get? (Key.canonical o.name d.schema.name) = none) :
    Succeeds p (.publish o d) 0 fun out _ => ∃ g, out = .registered g := by
  refine ⟨fun ms hms haccepts out hout => ?_, fun ms hms haccepts hout => ?_,
    fun ms hms haccepts hb => ?_⟩
  all_goals
    obtain ⟨answers, halone, hbusy, hrecords⟩ :=
      h.alone_any (o := o) (d := d) hopen hname hms
  · have hfree' : (p.circumstances o answers).Free d := free_circumstances_iff.2 ⟨hnamed, hfree⟩
    obtain ⟨record, hverdict⟩ := hfree'.verdict_of_accepts (hrecords haccepts)
    have hbare := halone.tracks.outcome (i := 0) rfl hout
    rw [hverdict] at hbare
    cases out with
    | registered g => exact ⟨g, rfl⟩
    | _ => cases hbare
  · rcases halone.stands with ⟨hs, hready⟩ | ⟨k, handle, d', hs⟩ | ⟨out, hs⟩
    · exact ⟨.run p.tasks.length, .run _ le_rfl le_rfl, trivial, hready⟩
    · exact ⟨.answerPublish p.tasks.length (.record ⟨"", "", none, {}⟩), .answer _ _ le_rfl le_rfl,
        ⟨_, rfl⟩, k, handle, d', hs⟩
    · rw [outcome?_eq_some_iff.2 hs] at hout
      cases hout
  · exact hbusy hb

end SchemaHerald.Publisher
