import SchemaHerald.Proofs.Commitments
import SchemaHerald.Proofs.Representation

/-!
# The course of one publish

A publish is asked for, by a caller or by a batch; it waits for its turn, and for a permit if there
are to be few at once; it begins in a turn of its own, in which it is refused or has the registry
called; the answer ends it. What it does to the registrar and to what can be seen, it does in its
own moves (`Move.task?`), while other tasks move in between as they like.

`Begins` says what the turn comes to in which a publish begins, and `Registrar.refusal?` what it is
refused for. `Sound.awaits_moves` finds this turn in any run, and `Sound.answered_moves` the answer;
before, in between and afterwards the publish leaves everything alone (`LeavesAlone`). `Course` puts
them together for a publish that has ended.
-/
namespace SchemaHerald

/-- The task whose move it is. -/
def Move.task? : Move → Option Nat
  | .run t | .abandon t | .answerPublish t _ | .answerUnpublish t _ => some t
  | _ => none

/-- The stages of a publish that has not begun. -/
def Stage.Awaits (o : RegistryOptions) (d : Definition) : Stage → Prop
  | .asked (.publish o' d') | .queued o' d' | .permitted o' d' => o' = o ∧ d' = d
  | _ => False

/-- A move is the answer that a task at a stage waits for. -/
def Move.Answers (u : Nat) (s : Stage) : Move → Prop
  | .answerPublish t _ =>
    t = u ∧ ((∃ k h d, s = .publishing k h d) ∨ ∃ h d, s = .tryingPublish h d)
  | .answerUnpublish t _ => t = u ∧ ((∃ g, s = .unpublishing g) ∨ ∃ g, s = .tryingUnpublish g)
  | _ => False

/-- **What a publish is refused for** before the registry is called, if it is refused. -/
def Registrar.refusal? (r : Registrar) (o : RegistryOptions) (d : Definition) : Option Failure :=
  if Text.trim o.name = "" then
    some (.invalidArgument "registry" "registry name must not be empty")
  else if d.name = "" then some (.invalidArgument "schema" "schema name must not be empty")
  else
    match r.reserve (Text.trim o.name) d.name with
    | .error failure => some failure
    | .ok _ => none

namespace Stage

variable {o : RegistryOptions} {d : Definition} {s s' : Stage}

theorem Awaits.not_calling (h : s.Awaits o d) : ¬ s.IsCalling := by
  cases s with
  | asked request => exact id
  | queued | permitted => exact id
  | _ => exact h.elim

theorem Awaits.not_unpublishing (h : s.Awaits o d) (g : Registration) : s ≠ .unpublishing g := by
  rintro rfl
  exact h

theorem Awaits.not_ended (h : s.Awaits o d) (out : Outcome) : s ≠ .ended out := by
  rintro rfl
  exact h

end Stage

namespace Publisher

open Relation

variable {p q : Publisher} {t u : Nat} {s : Stage} {o : RegistryOptions} {d : Definition} {k : Key}

/-- The registrar is the same, and nothing was seen. -/
structure Untouched (p q : Publisher) : Prop where
  registrar : q.registrar = p.registrar
  journal : q.journal = p.journal

/-- **A task leaves everything alone** as far as these moves go. -/
def LeavesAlone (u : Nat) : Publisher → List Move → Prop
  | _, [] => True
  | p, m :: ms => (m.task? = some u → Untouched p (p.move m)) ∧ LeavesAlone u (p.move m) ms

theorem LeavesAlone.append {ms ms' : List Move} (h : LeavesAlone u p ms)
    (h' : LeavesAlone u (p.moves ms) ms') : LeavesAlone u p (ms ++ ms') := by
  induction ms generalizing p with
  | nil => exact h'
  | cons m ms ih => exact ⟨h.1, ih h.2 h'⟩

/-- The publish of a schema has been asked for and has not begun. -/
def Awaits (p : Publisher) (u : Nat) (o : RegistryOptions) (d : Definition) : Prop :=
  ∃ s, p.stage? u = some s ∧ s.Awaits o d

/-- **What the beginning of a publish comes to**: it is refused, or it has its key reserved and the
registry called. -/
inductive Begins (u : Nat) (o : RegistryOptions) (d : Definition) (p q : Publisher) : Prop
  | refused (failure : Failure) (hrefusal : p.registrar.refusal? o d = some failure)
      (hstage : q.stage? u = some (.ended (.failed failure))) (hq : Untouched p q)
  | called (k : Key) (r : Registrar) (handle : Handle) (d' : Definition)
      (hrefusal : p.registrar.refusal? o d = none)
      (hr : p.registrar.reserve (Text.trim o.name) d.name = .ok (k, r))
      (hstage : q.stage? u = some (.publishing k handle d'))
      (hregistrar : q.registrar = (r.handleFor { o with name := Text.trim o.name }).2)
      (hjournal : q.journal = .publishCall u handle d' :: p.journal)

/-! ## The turn in which a publish begins -/

/-- A publish that is refused ends, and nothing else. -/
theorem Readied.refused {p' : Publisher} (hp : Readied u p p') (h : p.Sound) (hkin : p.Kin)
    (hs : p.stage? u = some s) (hawaits : s.Awaits o d) (failure : Failure) :
    (p'.finish u (.failed failure)).stage? u = some (.ended (.failed failure)) ∧
      Untouched p (p'.finish u (.failed failure)) := by
  have hself : p'.parent? u ≠ some u := by
    rw [hp.parent]
    exact h.parents.ne_self _
  have hs' : p'.stage? u = some s := hp.stage.trans hs
  refine ⟨(finished_finish hself hs' _).ended hself hs', ?_, ?_⟩
  · rcases registrar_finish hself hs' (.failed failure) with he | ⟨c, d', hc, hd', -⟩
    · rw [he, hp.registrar]
    · -- a teardown has no parts that publish
      rw [hp.parent] at hc
      exact absurd (hp.draining c d' hd')
        (hkin.not_draining hs hawaits.not_unpublishing hawaits.not_ended hc)
  · rw [journal_finish, hp.journal]

/-- **A publish begins.** -/
theorem Readied.begins {p' : Publisher} (hp : Readied u p p') (h : p.Sound) (hkin : p.Kin)
    (hs : p.stage? u = some s) (hawaits : s.Awaits o d) :
    Begins u o d p (p'.beginPublish u o d) := by
  have refused : ∀ failure, p.registrar.refusal? o d = some failure →
      Begins u o d p (p'.finish u (.failed failure)) := by
    intro failure hrefusal
    obtain ⟨hstage, hq⟩ := hp.refused h hkin hs hawaits failure
    exact .refused failure hrefusal hstage hq
  unfold beginPublish
  by_cases hname : Text.trim o.name = ""
  · rw [RegistryOptions.canonical?_of_blank hname]
    exact refused _ (if_pos hname)
  · rw [RegistryOptions.canonical?_eq_ok_iff.2 ⟨hname, rfl⟩]
    dsimp only
    by_cases hd : d.name = ""
    · rw [if_pos (String.isEmpty_iff.2 hd)]
      refine refused _ ?_
      rw [Registrar.refusal?, if_neg hname, if_pos hd]
    · rw [if_neg (fun he => hd (String.isEmpty_iff.1 he)), hp.registrar]
      have hrefusal : p.registrar.refusal? o d =
          match p.registrar.reserve (Text.trim o.name) d.name with
          | .error failure => some failure
          | .ok _ => none := by
        rw [Registrar.refusal?, if_neg hname, if_neg hd]
      cases hr : p.registrar.reserve (Text.trim o.name) d.name with
      | error failure => exact refused failure (by rw [hrefusal, hr])
      | ok made =>
        obtain ⟨k, r⟩ := made
        have hs' : (p'.withRegistrar (r.handleFor { o with name := Text.trim o.name }).2).stage? u =
            some s := hp.stage.trans hs
        refine .called k r _ _ (by rw [hrefusal, hr]) hr (stage?_setStage_self hs') rfl ?_
        exact congrArg (_ :: ·) hp.journal

/-- **The turn of a publish that has not begun**: it has to go on waiting, or it begins. -/
theorem Sound.awaits_run (h : p.Sound) (hkin : p.Kin) (hs : p.stage? u = some s)
    (hawaits : s.Awaits o d) :
    ((p.run u).Awaits u o d ∧ Untouched p (p.run u)) ∨ Begins u o d p (p.run u) := by
  by_cases hready : u ∈ p.ready
  · by_cases hattempts : p.Attempts u o d
    · obtain ⟨p', hrun, hp⟩ := hattempts.run
      rw [hrun]
      exact .inr (hp.begins h hkin hs hawaits)
    · left
      obtain ⟨parent, ht⟩ := stage?_eq_some_iff.1 hs
      cases s with
      | asked request =>
        cases request with
        | publish o' d' =>
          obtain ⟨rfl, rfl⟩ := hawaits
          -- it is a member of a batch that has no permit to give
          obtain ⟨c, b, hc, hb, h0⟩ : ∃ c b, p.parent? u = some c ∧
              p.stage? c = some (.gathering b) ∧ b.permits = some 0 := by
            by_contra hno
            exact hattempts ⟨hready, .inr ⟨hs, fun c b hc hb h0 => hno ⟨c, b, hc, hb, h0⟩⟩⟩
          have hparent : parent = some c := by simpa [parent?, ht] using hc
          subst hparent
          have hne : u ≠ c := fun he => by
            rw [he] at hs
            cases hs.symm.trans hb
          have hb' : ({ p with ready := p.ready.erase u } : Publisher).stage? c =
              some (.gathering b) := hb
          have hrun : p.run u = { p with ready := p.ready.erase u }.beginMember u c o' d' := by
            simp only [run, List.contains_iff_mem.2 hready, ite_true, ht, begin]
          rw [hrun, beginMember, hb']
          dsimp only
          rw [h0]
          refine ⟨⟨_, stage?_setStage_self (s := .asked (.publish o' d')) ?_, rfl, rfl⟩, rfl, rfl⟩
          rw [stage?_setStage_of_ne hne]
          exact hs
        | _ => exact hawaits.elim
      | queued o' d' =>
        have hrun : p.run u = { p with ready := p.ready.erase u } := by
          simp only [run, List.contains_iff_mem.2 hready, ite_true, ht]
        rw [hrun]
        exact ⟨⟨_, hs, hawaits⟩, rfl, rfl⟩
      | permitted o' d' =>
        obtain ⟨rfl, rfl⟩ := hawaits
        exact absurd ⟨hready, .inl hs⟩ hattempts
      | _ => exact hawaits.elim
  · rw [run_of_not_ready hready]
    exact .inl ⟨⟨s, hs, hawaits⟩, rfl, rfl⟩

/-! ## Moves of others -/

theorem Awaits.of_advances (h : p.Awaits u o d) (ha : Advances p q u)
    (hstays : ∀ s, p.stage? u = some s → s.Awaits o d → ¬ s.IsTold → q.stage? u = some s) :
    q.Awaits u o d := by
  obtain ⟨s, hs, hawaits⟩ := h
  by_cases htold : s.IsTold
  · obtain ⟨s', hs', rfl | hn⟩ := ha s hs
    · exact ⟨s', hs', hawaits⟩
    · cases hn with
      | letIn => exact ⟨_, hs', hawaits⟩
      | batch | gather | remove | drained => exact hawaits.elim
      | _ => exact htold.elim
  · exact ⟨s, hstays s hs hawaits htold, hawaits⟩

theorem Sound.awaits_steps (h : p.Sound) (ha : p.Awaits u o d) (hne : u ≠ t)
    (hs : ReflTransGen (Step t) p q) : q.Awaits u o d := by
  induction hs with
  | refl => exact ha
  | tail hsteps hstep ih =>
    have hsound := h.steps hsteps
    exact ih.of_advances (hsound.advances_step hstep u) fun s hs _ hnot =>
      hsound.stage?_step_of_ne hstep hne hs (.inl hnot)

theorem Sound.awaits_reply (h : p.Sound) (ha : p.Awaits u o d) (hs : Reply t p q) :
    q.Awaits u o d :=
  ha.of_advances (h.advances_reply hs u) fun _ hu hawaits hnot =>
    h.stage?_reply hs hu hnot hawaits.not_calling

/-- **In a move that is not its turn** a publish that has not begun goes on waiting. -/
theorem Sound.awaits_move (h : p.Sound) (ha : p.Awaits u o d) {m : Move} (hm : m ≠ .run u) :
    (p.move m).Awaits u o d ∧ (m.task? = some u → Untouched p (p.move m)) := by
  have same : ∀ {q}, q = p → q.Awaits u o d ∧ (m.task? = some u → Untouched p q) := by
    rintro q rfl
    exact ⟨ha, fun _ => ⟨rfl, rfl⟩⟩
  have other : ∀ {t q}, u ≠ t → m.task? = some t → q.Awaits u o d →
      q.Awaits u o d ∧ (m.task? = some u → Untouched p q) := by
    intro t q hne ht hq
    refine ⟨hq, fun hu => ?_⟩
    rw [hu] at ht
    exact absurd (Option.some.inj ht) hne
  obtain ⟨s, hs, hawaits⟩ := ha
  cases m with
  | ask request => exact ⟨⟨s, stage?_ask_of_some request hs, hawaits⟩, fun hu => by cases hu⟩
  | abandon t =>
    by_cases hut : u = t
    · subst hut
      refine same ?_
      rw [Publisher.move, abandon, hs]
      cases s with
      | gathering => exact hawaits.elim
      | _ => rfl
    · exact other hut rfl (h.awaits_steps ⟨s, hs, hawaits⟩ hut (abandon_steps p t))
  | run t =>
    have hut : u ≠ t := fun he => hm (congrArg Move.run he.symm)
    exact other hut rfl (h.awaits_steps ⟨s, hs, hawaits⟩ hut (run_steps p t))
  | answerPublish t a =>
    rcases answerPublish_reply p t a with he | hreply
    · exact same he
    · exact other (hreply.ne hs hawaits.not_calling) rfl (h.awaits_reply ⟨s, hs, hawaits⟩ hreply)
  | answerUnpublish t a =>
    rcases answerUnpublish_reply p t a with he | hreply
    · exact same he
    · exact other (hreply.ne hs hawaits.not_calling) rfl (h.awaits_reply ⟨s, hs, hawaits⟩ hreply)
  | reserve | drop | register | unregister | newHandle | handleFor =>
    exact ⟨⟨s, (stage?_congr (tasks_of_isDirect p rfl) u).trans hs, hawaits⟩, fun hu => by cases hu⟩

/-- **In any run** a publish goes on waiting, or there is the turn in which it begins. -/
theorem Sound.awaits_moves (h : p.Sound) (hkin : p.Kin) (ha : p.Awaits u o d) (ms : List Move) :
    (p.moves ms).Awaits u o d ∨
      ∃ before after, ms = before ++ .run u :: after ∧ LeavesAlone u p before ∧
        Begins u o d (p.moves before) ((p.moves before).run u) := by
  induction ms generalizing p with
  | nil => exact .inl ha
  | cons m ms ih =>
    have next : (p.move m).Awaits u o d → (m.task? = some u → Untouched p (p.move m)) →
        ((p.move m).moves ms).Awaits u o d ∨
          ∃ before after, m :: ms = before ++ .run u :: after ∧ LeavesAlone u p before ∧
            Begins u o d (p.moves before) ((p.moves before).run u) := by
      intro ha' huntouched
      rcases ih (h.move m) (hkin.move h m) ha' with hwaits | ⟨before, after, rfl, halone, hbegins⟩
      · exact .inl hwaits
      · exact .inr ⟨m :: before, after, rfl, ⟨huntouched, halone⟩, hbegins⟩
    by_cases hm : m = .run u
    · subst hm
      obtain ⟨s, hs, hawaits⟩ := ha
      rcases h.awaits_run hkin hs hawaits with ⟨ha', huntouched⟩ | hbegins
      · exact next ha' fun _ => huntouched
      · exact .inr ⟨[], ms, rfl, trivial, hbegins⟩
    · obtain ⟨ha', huntouched⟩ := h.awaits_move ha hm
      exact next ha' huntouched

/-! ## Waiting for an answer, and the end -/

theorem steps_of_still (hs : ReflTransGen (Step t) p q) (ht : p.stage? t = some s)
    (hstill : s.IsStill) : ∃ ready, q = { p with ready } := by
  induction hs with
  | refl => exact ⟨p.ready, rfl⟩
  | tail _ hstep ih =>
    obtain ⟨ready, rfl⟩ := ih
    obtain ⟨ready', rfl⟩ := hstep.eq_of_still (p := { p with ready }) ht hstill
    exact ⟨ready', rfl⟩

/-- **In any move** a task that waits for an answer, or has ended, stays where it is and leaves
everything alone, unless the move is the answer. -/
theorem Sound.still_move (h : p.Sound) (hs : p.stage? u = some s) (hstill : s.IsStill) {m : Move}
    (hm : ¬ m.Answers u s) :
    (p.move m).stage? u = some s ∧ (m.task? = some u → Untouched p (p.move m)) := by
  have hnot : ¬ s.IsTold := fun htold => by cases s <;> first | exact hstill | exact htold
  have turn : ∀ {t q}, ReflTransGen (Step t) p q →
      q.stage? u = some s ∧ (some t = some u → Untouched p q) := by
    intro t q hsteps
    refine ⟨h.stage?_steps_of_still hsteps hs hstill, fun hut => ?_⟩
    cases hut
    obtain ⟨ready, rfl⟩ := steps_of_still hsteps hs hstill
    exact ⟨rfl, rfl⟩
  have answer : ∀ {t q}, (q = p ∨ Reply t p q) → (t = u → q = p) →
      q.stage? u = some s ∧ (some t = some u → Untouched p q) := by
    intro t q hq hsame
    by_cases hut : t = u
    · rw [hsame hut]
      exact ⟨hs, fun _ => ⟨rfl, rfl⟩⟩
    · refine ⟨?_, fun he => absurd (Option.some.inj he) hut⟩
      rcases hq with rfl | hreply
      · exact hs
      · exact h.stage?_reply_of_ne hreply (Ne.symm hut) hs (.inl hnot)
  cases m with
  | ask request => exact ⟨stage?_ask_of_some request hs, fun hu => by cases hu⟩
  | abandon t => exact turn (abandon_steps p t)
  | run t => exact turn (run_steps p t)
  | answerPublish t a =>
    refine answer (answerPublish_reply p t a) fun hut => ?_
    subst hut
    show p.answerPublish t a = p
    unfold answerPublish
    rw [hs]
    cases s with
    | publishing k handle d => exact absurd ⟨rfl, .inl ⟨k, handle, d, rfl⟩⟩ hm
    | tryingPublish handle d => exact absurd ⟨rfl, .inr ⟨handle, d, rfl⟩⟩ hm
    | _ => rfl
  | answerUnpublish t a =>
    refine answer (answerUnpublish_reply p t a) fun hut => ?_
    subst hut
    show p.answerUnpublish t a = p
    unfold answerUnpublish
    rw [hs]
    cases s with
    | unpublishing g => exact absurd ⟨rfl, .inl ⟨g, rfl⟩⟩ hm
    | tryingUnpublish g => exact absurd ⟨rfl, .inr ⟨g, rfl⟩⟩ hm
    | _ => rfl
  | reserve | drop | register | unregister | newHandle | handleFor =>
    exact ⟨(stage?_congr (tasks_of_isDirect p rfl) u).trans hs, fun hu => by cases hu⟩

/-- **In any run** such a task stays where it is, or the answer comes that it waits for. -/
theorem Sound.still_moves (h : p.Sound) (hs : p.stage? u = some s) (hstill : s.IsStill)
    (ms : List Move) :
    (LeavesAlone u p ms ∧ (p.moves ms).stage? u = some s) ∨
      ∃ mid m after, ms = mid ++ m :: after ∧ LeavesAlone u p mid ∧
        (p.moves mid).stage? u = some s ∧ m.Answers u s := by
  induction ms generalizing p with
  | nil => exact .inl ⟨trivial, hs⟩
  | cons m ms ih =>
    by_cases hm : m.Answers u s
    · exact .inr ⟨[], m, ms, rfl, trivial, hs, hm⟩
    · obtain ⟨hstays, halone⟩ := h.still_move hs hstill hm
      rcases ih (h.move m) hstays with ⟨hrest, hend⟩ | ⟨mid, m', after, rfl, hmid, hs', hm'⟩
      · exact .inl ⟨⟨halone, hrest⟩, hend⟩
      · exact .inr ⟨m :: mid, m', after, rfl, ⟨halone, hmid⟩, hs', hm'⟩

/-- A task that has ended leaves everything alone. -/
theorem Sound.ended_moves (h : p.Sound) {out : Outcome} (hs : p.stage? u = some (.ended out))
    (ms : List Move) : LeavesAlone u p ms := by
  rcases h.still_moves hs trivial ms with ⟨halone, -⟩ | ⟨mid, m, after, -, -, -, hm⟩
  · exact halone
  · cases m with
    | answerPublish t a => rcases hm with ⟨-, ⟨_, _, _, he⟩ | ⟨_, _, he⟩⟩ <;> cases he
    | answerUnpublish t a => rcases hm with ⟨-, ⟨_, he⟩ | ⟨_, he⟩⟩ <;> cases he
    | _ => exact hm.elim

/-- **What an answer makes of a publish** that had a key reserved. -/
inductive Settles (k : Key) : Answer → Outcome → Prop
  | registered (record : Record) (g : Registration) : Settles k (.record record) (.registered g)
  | refused (cause : Cause) :
    Settles k (.refused cause) (.failed (.remote k.registry k.schema cause))
  | broken (message : String) : Settles k (.broken message) (.broken message)

/-- A publish that has been answered has ended. -/
theorem Sound.ended_answerPublish (h : p.Sound) {handle : Handle}
    (hs : p.stage? u = some (.publishing k handle d)) (a : Answer) :
    ∃ out, Settles k a out ∧ (p.answerPublish u a).stage? u = some (.ended out) := by
  unfold answerPublish
  rw [hs]
  cases a with
  | record record =>
    exact ⟨_, .registered record _, h.ended_finish (tasks_withRegistered p k record handle) hs _⟩
  | refused cause => exact ⟨_, .refused cause, h.ended_finish (by simp) hs _⟩
  | broken message => exact ⟨_, .broken message, h.ended_finish (by simp) hs _⟩

/-- **A publish that waited for an answer and has ended** was given one, and left everything alone
before and afterwards. -/
theorem Sound.answered_moves (h : p.Sound) {handle : Handle}
    (hs : p.stage? u = some (.publishing k handle d)) {ms : List Move} {out : Outcome}
    (hout : (p.moves ms).outcome? u = some out) :
    ∃ mid a after, ms = mid ++ .answerPublish u a :: after ∧ LeavesAlone u p mid ∧
      (p.moves mid).stage? u = some (.publishing k handle d) ∧
      LeavesAlone u ((p.moves mid).answerPublish u a) after ∧ Settles k a out := by
  rcases h.still_moves hs trivial ms with ⟨-, hend⟩ | ⟨mid, m, after, rfl, hmid, hs', hm⟩
  · rw [outcome?_eq_some_iff] at hout
    cases hend.symm.trans hout
  · cases m with
    | answerPublish t a =>
      obtain ⟨rfl, -⟩ := hm
      obtain ⟨out', hsettles, hout'⟩ := (h.moves mid).ended_answerPublish hs' a
      have hanswered : ((p.moves mid).answerPublish t a).Sound :=
        (h.moves mid).move (.answerPublish t a)
      have hend := hanswered.outcome?_moves after (outcome?_eq_some_iff.2 hout')
      rw [moves_append] at hout
      cases hend.symm.trans hout
      exact ⟨mid, a, after, rfl, hmid, hs', hanswered.ended_moves hout' after, hsettles⟩
    | answerUnpublish t a => rcases hm with ⟨-, ⟨_, he⟩ | ⟨_, he⟩⟩ <;> cases he
    | _ => exact hm.elim

/-! ## The whole course -/

/-- **The course of a publish that has ended**, from where it was waiting to begin: it was refused
in its turn, or it had the registry called in its turn and was answered. In all other moves of its
own it left everything alone. -/
inductive Course (p : Publisher) (u : Nat) (o : RegistryOptions) (d : Definition) (ms : List Move) :
    Outcome → Prop
  | refused (before after : List Move) (failure : Failure) (hms : ms = before ++ .run u :: after)
      (hbefore : LeavesAlone u p before)
      (hrefusal : (p.moves before).registrar.refusal? o d = some failure)
      (hrun : Untouched (p.moves before) ((p.moves before).run u))
      (hafter : LeavesAlone u ((p.moves before).run u) after) : Course p u o d ms (.failed failure)
  | answered (before mid after : List Move) (a : Answer) (k : Key) (r : Registrar) (handle : Handle)
      (d' : Definition) (out : Outcome)
      (hms : ms = before ++ .run u :: (mid ++ .answerPublish u a :: after))
      (hbefore : LeavesAlone u p before)
      (hrefusal : (p.moves before).registrar.refusal? o d = none)
      (hr : (p.moves before).registrar.reserve (Text.trim o.name) d.name = .ok (k, r))
      (hregistrar : ((p.moves before).run u).registrar =
        (r.handleFor { o with name := Text.trim o.name }).2)
      (hjournal : ((p.moves before).run u).journal =
        .publishCall u handle d' :: (p.moves before).journal)
      (hmid : LeavesAlone u ((p.moves before).run u) mid)
      (hstage : (((p.moves before).run u).moves mid).stage? u = some (.publishing k handle d'))
      (hafter : LeavesAlone u ((((p.moves before).run u).moves mid).answerPublish u a) after)
      (hsettles : Settles k a out) : Course p u o d ms out

/-- **A publish that has ended ran its course.** -/
theorem Sound.course (h : p.Sound) (hkin : p.Kin) (ha : p.Awaits u o d) {ms : List Move}
    {out : Outcome} (hout : (p.moves ms).outcome? u = some out) : Course p u o d ms out := by
  rcases h.awaits_moves hkin ha ms with ⟨s, hs, hawaits⟩ | ⟨before, after, rfl, hbefore, hbegins⟩
  · rw [outcome?_eq_some_iff, hs] at hout
    exact absurd (Option.some.inj hout) (hawaits.not_ended out)
  · have hbegun : ((p.moves before).run u).Sound := (h.moves before).move (.run u)
    rw [moves_append] at hout
    cases hbegins with
    | refused failure hrefusal hstage hrun =>
      have hend := hbegun.outcome?_moves after (outcome?_eq_some_iff.2 hstage)
      cases hend.symm.trans hout
      exact .refused before after failure rfl hbefore hrefusal hrun
        (hbegun.ended_moves hstage after)
    | called k r handle d' hrefusal hr hstage hregistrar hjournal =>
      obtain ⟨mid, a, after, rfl, hmid, hs, hafter, hsettles⟩ := hbegun.answered_moves hstage hout
      exact .answered before mid after a k r handle d' out rfl hbefore hrefusal hr hregistrar
        hjournal hmid hs hafter hsettles

end Publisher
end SchemaHerald
