import SchemaHerald.Proofs.Representation
import SchemaHerald.Proofs.Teardowns

/-!
# After a registrar was closed

The first task that finds the registrar open when it closes tears it down. Whoever else moves in the
meantime, the task stays at it until it releases the registrar, and ends with that
(`Closes.step`, `Closes.reply`): nothing is live then, there is no handle, and all handles that there
were are shut.

From there on (`TornDown`) nobody publishes or closes any more, so that no move changes the registrar
but those of a caller who makes a handle or asks for one (`TornDown.registrar_move`). A reservation is
refused by a registrar that is closed, but the request for a handle is not: it makes a new one, which
is open and stays open. `afterTeardown_moves` says that the registrar stays empty exactly as long as
nobody asks for a handle, and `handle_afterTeardown` is a handle that somebody gets.
-/
namespace SchemaHerald

namespace Registrar

variable {r r' : Registrar}

/-! ## Numbers of handles -/

/-- **Numbers are not given twice**: those of the handles that are stored and of those that are shut
were given. -/
structure Counted (r : Registrar) : Prop where
  shut : ∀ n ∈ r.shut, n < r.made
  stored : ∀ n h, r.handles.get? n = some h → h.number < r.made

theorem Counted.of_eq (h : r.Counted) (hh : r'.handles = r.handles) (hs : r'.shut = r.shut)
    (hm : r.made ≤ r'.made) : r'.Counted where
  shut n hn := Nat.lt_of_lt_of_le (h.shut n (hs ▸ hn)) hm
  stored n g hg := Nat.lt_of_lt_of_le (h.stored n g (hh ▸ hg)) hm

theorem Counted.handleFor (h : r.Counted) (o : RegistryOptions) : (r.handleFor o).2.Counted := by
  unfold Registrar.handleFor
  split
  · exact h
  · refine ⟨fun n hn => Nat.lt_succ_of_lt (h.shut n hn), fun n g hg => ?_⟩
    simp only [newHandle, Table.get?_insert] at hg
    split at hg
    · cases hg
      exact Nat.lt_succ_self _
    · exact Nat.lt_succ_of_lt (h.stored n g hg)

theorem Counted.unregister (h : r.Counted) (g : Registration) : (r.unregister g).Counted :=
  h.of_eq (handles_unregister g) (shut_unregister g) (Nat.le_of_eq (made_unregister g).symm)

theorem Counted.reserve {registry schema : String} {k : Key} (h : r.Counted)
    (hr : r.reserve registry schema = .ok (k, r')) : r'.Counted := by
  rw [(reserve_eq_ok_iff.1 hr).2.2.2]
  exact h.of_eq rfl rfl (Nat.le_refl _)

theorem Counted.change (h : r.Counted) (hc : r.Change r') : r'.Counted := by
  cases hc with
  | reserve o schema k r₁ hr => exact (h.reserve hr).handleFor o
  | commit => exact h.of_eq rfl rfl (Nat.le_succ _)
  | abandon | close => exact h.of_eq rfl rfl (Nat.le_refl _)
  | unregister g => exact h.unregister g
  | release hc h0 =>
    refine ⟨fun n hn => ?_, fun n g hg => by cases hg⟩
    rcases List.mem_append.1 hn with hn | hn
    · obtain ⟨g, hg, rfl⟩ := List.mem_map.1 hn
      obtain ⟨k, hk⟩ := (Table.mem_values_iff _ _).1 hg
      exact h.stored k g hk
    · exact h.shut n hn

theorem Counted.use (h : r.Counted) (hu : r.Use r') : r'.Counted := by
  cases hu with
  | refused => exact h
  | reserve registry schema k _ hr => exact h.reserve hr
  | drop => exact h.of_eq rfl rfl (Nat.le_refl _)
  | register | newHandle => exact h.of_eq rfl rfl (Nat.le_succ _)
  | unregister g => exact h.unregister g
  | handleFor o => exact h.handleFor o

theorem Counted.changes (h : r.Counted) (hc : r.Changes r') : r'.Counted := by
  induction hc with
  | refl => exact h
  | tail _ hstep ih => exact ih.change hstep

/-! ## Handles after a release -/

/-- What a caller may still do to a registrar that was torn down: make a handle, or ask for one. -/
def serve (r : Registrar) : Move → Registrar
  | .newHandle options => (r.newHandle options).2
  | .handleFor options => (r.handleFor options).2
  | _ => r

@[simp] theorem slots_serve (r : Registrar) (m : Move) : (r.serve m).slots = r.slots := by
  cases m with
  | handleFor options => exact slots_handleFor options
  | _ => rfl

@[simp] theorem shut_serve (r : Registrar) (m : Move) : (r.serve m).shut = r.shut := by
  cases m with
  | handleFor options => exact shut_handleFor options
  | _ => rfl

theorem shut_foldl_serve (r : Registrar) (ms : List Move) :
    (ms.foldl serve r).shut = r.shut := by
  induction ms generalizing r with
  | nil => rfl
  | cons m ms ih => exact (ih _).trans (r.shut_serve m)

theorem Quiet.serve (h : r.Quiet) (m : Move) : (r.serve m).Quiet := by
  cases m with
  | newHandle options => exact ⟨h.closed, h.idle⟩
  | handleFor options =>
    exact ⟨(closed_handleFor options).trans h.closed, (inFlight_handleFor options).trans h.idle⟩
  | _ => exact h

/-- A request for a handle leaves one under its name, and nothing else does. -/
theorem isSome_handles_serve (r : Registrar) (m : Move) (n : String) :
    ((r.serve m).handles.get? n).isSome ↔
      (r.handles.get? n).isSome ∨ ∃ o, m = .handleFor o ∧ o.name = n := by
  cases m with
  | handleFor options =>
    simp only [serve, get?_handleFor]
    by_cases hn : n = options.name
    · simp [hn]
    · have hne : options.name ≠ n := fun he => hn he.symm
      simp [hn, hne]
  | _ => simp [serve, newHandle]

/-- **The names with a handle** afterwards: those of before, and those that were asked for. -/
theorem isSome_handles_foldl_serve (r : Registrar) (ms : List Move) (n : String) :
    ((ms.foldl serve r).handles.get? n).isSome ↔
      (r.handles.get? n).isSome ∨ ∃ o, .handleFor o ∈ ms ∧ o.name = n := by
  induction ms generalizing r with
  | nil => simp
  | cons m ms ih =>
    rw [List.foldl_cons, ih, isSome_handles_serve, or_assoc]
    refine or_congr_right ⟨?_, ?_⟩
    · rintro (⟨o, rfl, hn⟩ | ⟨o, ho, hn⟩)
      · exact ⟨o, List.mem_cons_self .., hn⟩
      · exact ⟨o, List.mem_cons_of_mem _ ho, hn⟩
    · rintro ⟨o, ho, hn⟩
      rcases List.mem_cons.1 ho with he | ho
      · exact .inl ⟨o, he.symm, hn⟩
      · exact .inr ⟨o, ho, hn⟩

/-- Whatever is shut got its number before the handles that there are. -/
structure Outlives (r : Registrar) (least : Nat) : Prop where
  shut : ∀ n ∈ r.shut, n < least
  stored : ∀ n h, r.handles.get? n = some h → least ≤ h.number
  made : least ≤ r.made

theorem Outlives.serve {least : Nat} (h : r.Outlives least) (m : Move) :
    (r.serve m).Outlives least := by
  cases m with
  | newHandle options => exact ⟨h.shut, h.stored, Nat.le_succ_of_le h.made⟩
  | handleFor options =>
    simp only [Registrar.serve, handleFor]
    split
    · exact h
    · refine ⟨h.shut, fun n g hg => ?_, Nat.le_succ_of_le h.made⟩
      simp only [newHandle, Table.get?_insert] at hg
      split at hg
      · cases hg
        exact h.made
      · exact h.stored n g hg
  | _ => exact h

theorem Outlives.foldl_serve {least : Nat} (h : r.Outlives least) (ms : List Move) :
    (ms.foldl Registrar.serve r).Outlives least := by
  induction ms generalizing r with
  | nil => exact h
  | cons m ms ih => exact ih (h.serve m)

/-- A handle that is stored is open if it got its number after those that are shut. -/
theorem Outlives.isOpen {least : Nat} (h : r.Outlives least) {n : String} {g : Handle}
    (hg : r.handles.get? n = some g) : r.isShut g = false := by
  rw [isShut, List.contains_eq_mem, decide_eq_false_iff_not]
  intro hshut
  have hlt := h.shut _ hshut
  have hle := h.stored n g hg
  omega

/-- Nothing is taken back from a registrar in which no key is taken. -/
theorem unregister_of_empty (h : r.slots = {}) (g : Registration) : r.unregister g = r := by
  have hholds : r.holds g = false := by
    rw [holds, h]
    rfl
  rw [unregister, hholds]
  rfl

theorem registrations_of_empty (h : r.slots = {}) : r.registrations = [] := by
  refine registrations_eq_nil_iff.2 fun k => ?_
  rw [live?, h]
  rfl

end Registrar

namespace Publisher

open Relation

variable {p q : Publisher} {t c : Nat} {s : Stage} {o : Outcome}

/-! ## The teardown -/

/-- **Where the task stands that tears the registrar down**: it is at it, and nobody else is, or it
has ended, and nothing is left. -/
inductive Closes (p : Publisher) (c : Nat) : Prop
  | atWork (s : Stage) (hc : p.stage? c = some s) (hs : s.IsClosing) (hsole : SoleCloser p c)
  | isOver (o : Outcome) (hc : p.stage? c = some (.ended o))
      (hidle : ∀ u s, p.stage? u = some s → ¬ s.IsClosing) (hbare : p.registrar.Bare)

/-- A task that closes has closed the registrar. -/
theorem Sound.closed_of_closing (h : p.Sound) (hc : p.stage? c = some s) (hs : s.IsClosing) :
    p.registrar.closed = true := by
  by_contra hopen
  exact h.not_closing (Bool.eq_false_iff.2 hopen) hc hs

/-- Nobody closes any more when the only one who did has ended. -/
theorem SoleCloser.idle (hsole : SoleCloser p c) (hc : p.stage? c = some (.ended o)) (u : Nat)
    (s : Stage) (hu : p.stage? u = some s) : ¬ s.IsClosing := by
  intro hs
  rw [hsole u s hu hs, hc] at hu
  cases hu
  exact hs

/-- **In a step** a task that closes stays at it, or releases the registrar and ends. -/
theorem Sound.closing_goes_step (h : p.Sound) (hkin : p.Kin) (hs : Step t p q)
    (hc : p.stage? c = some s) (hclosing : s.IsClosing) :
    (∃ s', q.stage? c = some s' ∧ s'.IsClosing) ∨
      ∃ o, q.stage? c = some (.ended o) ∧ q.registrar.Bare := by
  by_cases htc : t = c
  · subst htc
    cases hs with
    | turn ready => exact .inl ⟨s, hc, hclosing⟩
    | release td outcome ht h0 ho =>
      have htasks : (p.withRegistrar p.registrar.release).tasks = p.tasks := rfl
      refine .inr ⟨outcome, h.ended_finish htasks ht outcome, ?_⟩
      have hbare : p.registrar.release.Bare := Registrar.bare_release (h.fits t _ ht) h0
      have hself : p.parent? t ≠ some t := h.parents.ne_self t
      rcases registrar_finish (p := p.withRegistrar p.registrar.release) hself ht outcome with
        hr | ⟨_, _, -, -, -, hr, -⟩
      · rw [hr]
        exact hbare
      · rw [hr]
        exact Registrar.bare_release hbare.closed hbare.idle
    | drain ht h0 hne =>
      exact .inl ⟨_, stage?_setStage_self (p := { p with ready := t :: p.ready }) ht, trivial⟩
    | take d g rest ready ht hr =>
      have ht' := stage?_append_of_some
        (q := { p with tasks := p.tasks ++ [{ stage := .unpublishing g, parent := some t }] }) rfl ht
      exact .inl ⟨_, stage?_setStage_self ht', trivial⟩
    | giveUp _ ht | queue _ _ _ _ ht | grant _ _ _ _ _ ht | permit _ _ ht | refuse _ _ _ ht
    | reserve _ _ _ _ _ ht | refuseBatch _ _ _ ht | beginBatch _ _ _ ht | gather _ ht
    | unpublish _ ht | tryPublish _ _ ht | tryUnpublish _ ht | closeAgain _ ht | close _ ht =>
      -- every other step has its task at a stage at which it does not close
      obtain rfl := Option.some.inj (ht.symm.trans hc)
      exact hclosing.elim
  · refine .inl ⟨s, ?_, hclosing⟩
    cases s with
    | waiting td => exact h.stage?_step_of_ne hs (Ne.symm htc) hc (.inl id)
    | draining d => exact hkin.draining_step_of_ne h hs htc hc
    | _ => exact hclosing.elim

/-- **In a reply** a task that closes stays at it, or releases the registrar and ends. -/
theorem Sound.closing_goes_reply (h : p.Sound) (hkin : p.Kin) (hs : Reply t p q)
    (hc : p.stage? c = some s) (hclosing : s.IsClosing) :
    (∃ s', q.stage? c = some s' ∧ s'.IsClosing) ∨
      ∃ o, q.stage? c = some (.ended o) ∧ q.registrar.Bare := by
  cases s with
  | waiting td => exact .inl ⟨_, h.stage?_reply hs hc id id, trivial⟩
  | draining d =>
    rcases hkin.draining_reply h hs hc with
      ⟨-, hc'⟩ | ⟨g, o, -, -, -, -, hc' | ⟨hc', -, hbare⟩⟩
    · exact .inl ⟨_, hc', trivial⟩
    · exact .inl ⟨_, hc', trivial⟩
    · exact .inr ⟨_, hc', hbare⟩
  | _ => exact hclosing.elim

theorem Closes.step (hcl : p.Closes c) (h : p.Sound) (hkin : p.Kin) (hs : Step t p q) :
    q.Closes c := by
  cases hcl with
  | atWork s hc hclosing hsole =>
    have hsole' := hsole.step h (h.closed_of_closing hc hclosing) hs
    rcases h.closing_goes_step hkin hs hc hclosing with ⟨s', hc', hs'⟩ | ⟨o, hc', hbare⟩
    · exact .atWork s' hc' hs' hsole'
    · exact .isOver o hc' (hsole'.idle hc') hbare
  | isOver o hc hidle hbare =>
    refine .isOver o (h.stage?_step_of_still hs hc trivial) (fun u s hu hs' => ?_)
      ((h.changes_step hs).bare hbare)
    obtain ⟨s₀, hs₀, hclosing⟩ := h.closing_step hs (.inl hbare.closed) hu hs'
    exact hidle u s₀ hs₀ hclosing

theorem Closes.reply (hcl : p.Closes c) (h : p.Sound) (hkin : p.Kin) (hs : Reply t p q) :
    q.Closes c := by
  cases hcl with
  | atWork s hc hclosing hsole =>
    have hsole' := hsole.reply h hs
    rcases h.closing_goes_reply hkin hs hc hclosing with ⟨s', hc', hs'⟩ | ⟨o, hc', hbare⟩
    · exact .atWork s' hc' hs' hsole'
    · exact .isOver o hc' (hsole'.idle hc') hbare
  | isOver o hc hidle hbare =>
    refine .isOver o (h.stage?_reply hs hc id id) (fun u s hu hs' => ?_)
      ((h.changes_reply hs).bare hbare)
    obtain ⟨s₀, hs₀, hclosing⟩ := h.closing_reply hs hu hs'
    exact hidle u s₀ hs₀ hclosing

theorem Closes.steps (hcl : p.Closes c) (h : p.Sound) (hkin : p.Kin)
    (hs : ReflTransGen (Step t) p q) : q.Closes c := by
  have hall : q.Sound ∧ q.Kin ∧ q.Closes c := by
    induction hs with
    | refl => exact ⟨h, hkin, hcl⟩
    | tail _ hstep ih =>
      exact ⟨ih.1.step hstep, ih.2.1.step ih.1 hstep, ih.2.2.step ih.1 ih.2.1 hstep⟩
  exact hall.2.2

/-- **A move** leaves the task at work, or it ends by it. -/
theorem Closes.move (hcl : p.Closes c) (h : p.Sound) (hkin : p.Kin) (hnone : p.outcome? c = none)
    (m : Move) : (p.move m).Closes c := by
  have hall : (p.move m).Sound ∧ (p.move m).Kin ∧ (p.move m).Closes c := by
    refine move_induction (P := fun q => q.Sound ∧ q.Kin ∧ q.Closes c) m ?_ ?_ ?_ ?_ ⟨h, hkin, hcl⟩
    · intro request _
      refine ⟨h.ask request, hkin.ask h request, ?_⟩
      cases hcl with
      | atWork s hc hclosing hsole =>
        exact .atWork s (stage?_ask_of_some request hc) hclosing (hsole.ask request)
      | isOver o hc hidle hbare =>
        rw [outcome?_eq_some_iff.2 hc] at hnone
        cases hnone
    · exact fun _ _ _ hs ⟨hq, hkq, hclq⟩ => ⟨hq.step hs, hkq.step hq hs, hclq.step hq hkq hs⟩
    · exact fun _ _ hs => ⟨h.reply hs, hkin.reply h hs, hcl.reply h hkin hs⟩
    · intro hm
      have htasks := tasks_of_isDirect p hm
      refine ⟨h.direct hm, hkin.congr htasks, ?_⟩
      cases hcl with
      | atWork s hc hclosing hsole =>
        refine .atWork s ((stage?_congr htasks c).trans hc) hclosing fun u s' hu => ?_
        exact hsole u s' ((stage?_congr htasks u).symm.trans hu)
      | isOver o hc hidle hbare =>
        rw [outcome?_eq_some_iff.2 hc] at hnone
        cases hnone
  exact hall.2.2

/-- **The first turn of a close** that finds the registrar open begins the teardown. -/
theorem Sound.closes_run {td : SchemaHerald.Teardown} (h : p.Sound) (hkin : p.Kin)
    (hready : c ∈ p.ready) (hc : p.stage? c = some (.asked (.close td)))
    (hopen : p.registrar.closed = false) : (p.run c).Closes c := by
  obtain ⟨parent, ht⟩ := stage?_eq_some_iff.1 hc
  generalize hp' : ({ p with ready := p.ready.erase c } : Publisher) = p'
  have hturn : Step c p p' := hp' ▸ .turn _
  have hc' : p'.stage? c = some (.asked (.close td)) := hp' ▸ hc
  have hopen' : p'.registrar.closed = false := hp' ▸ hopen
  have hclose : Step c p' ((p'.withRegistrar p'.registrar.close).setStage c (.waiting td)) :=
    .close td hc' hopen'
  have hwait : ((p'.withRegistrar p'.registrar.close).setStage c (.waiting td)).stage? c =
      some (.waiting td) := stage?_setStage_self (p := p'.withRegistrar p'.registrar.close) hc'
  have hrun : p.run c = ((p'.withRegistrar p'.registrar.close).setStage c (.waiting td)).tearDown c
      td := by
    rw [tearDown_setStage, ← hp']
    simp only [run, List.contains_iff_mem.2 hready, ite_true, ht, begin, beginClose, hopen,
      Bool.false_eq_true, ite_false]
  have hsound' := h.step hturn
  have hkin' := hkin.step h hturn
  rw [hrun]
  refine Closes.steps (.atWork _ hwait trivial fun u s hu hs => ?_) (hsound'.step hclose)
    (hkin'.step hsound' hclose) (steps_tearDown hwait)
  -- before this turn nobody was closing
  by_contra huc
  have hu' : p'.stage? u = some s := by
    rw [← hu]
    exact (stage?_setStage_of_ne (p := p'.withRegistrar p'.registrar.close) huc).symm
  exact hsound'.not_closing hopen' hu' hs

/-! ## After the teardown -/

/-- **The registrar was torn down**: no key is taken or can be, and nobody closes any more. -/
structure TornDown (p : Publisher) : Prop where
  sound : p.Sound
  quiet : p.registrar.Quiet
  slots : p.registrar.slots = {}
  idle : ∀ u s, p.stage? u = some s → ¬ s.IsClosing

/-- The end of a task releases nothing any more. -/
theorem TornDown.registrar_finish (h : p.TornDown) {p' : Publisher} (htasks : p'.tasks = p.tasks)
    (ht : p.stage? t = some s) (o : Outcome) : (p'.finish t o).registrar = p'.registrar :=
  h.sound.registrar_finish_apart ht htasks (fun _ _ _ hd => h.idle _ _ hd trivial) o

/-- **By itself no task changes a registrar** that was torn down. -/
theorem TornDown.registrar_step (h : p.TornDown) (hs : Step t p q) :
    q.registrar = p.registrar := by
  cases hs with
  | refuse o d failure ht => exact h.registrar_finish rfl ht _
  | refuseBatch o ds outcome ht ho => exact h.registrar_finish rfl ht _
  | closeAgain td ht hc => exact h.registrar_finish rfl ht _
  | reserve o o' d k r ht ho hd hr =>
    have hopen := (Registrar.reserve_eq_ok_iff.1 hr).1
    rw [h.quiet.closed] at hopen
    cases hopen
  | close td ht hc =>
    rw [h.quiet.closed] at hc
    cases hc
  | release td outcome ht h0 ho => exact (h.idle t _ ht trivial).elim
  | _ => rfl

/-- **No answer changes a registrar** that was torn down. -/
theorem TornDown.registrar_reply (h : p.TornDown) (hs : Reply t p q) :
    q.registrar = p.registrar := by
  cases hs with
  | commit k handle d record ht => exact (h.sound.not_idle ht h.quiet.idle).elim
  | lose k handle d outcome ht ho => exact (h.sound.not_idle ht h.quiet.idle).elim
  | remove g ht =>
    rw [h.registrar_finish (by simp) ht, registrar_withdraw, registrar_withRegistrar,
      Registrar.unregister_of_empty h.slots]
  | keep g cause ht => exact h.registrar_finish rfl ht _
  | tried s outcome ht hs ho => exact h.registrar_finish rfl ht _

theorem TornDown.step (h : p.TornDown) (hs : Step t p q) : q.TornDown := by
  have hr := h.registrar_step hs
  refine ⟨h.sound.step hs, hr ▸ h.quiet, hr ▸ h.slots, fun u s hu hs' => ?_⟩
  obtain ⟨s₀, hs₀, hclosing⟩ := h.sound.closing_step hs (.inl h.quiet.closed) hu hs'
  exact h.idle u s₀ hs₀ hclosing

theorem TornDown.reply (h : p.TornDown) (hs : Reply t p q) : q.TornDown := by
  have hr := h.registrar_reply hs
  refine ⟨h.sound.reply hs, hr ▸ h.quiet, hr ▸ h.slots, fun u s hu hs' => ?_⟩
  obtain ⟨s₀, hs₀, hclosing⟩ := h.sound.closing_reply hs hu hs'
  exact h.idle u s₀ hs₀ hclosing

theorem TornDown.ask (h : p.TornDown) (request : Request) : (p.ask request).TornDown := by
  refine ⟨h.sound.ask request, h.quiet, h.slots, fun u s hu hs => ?_⟩
  rcases stage?_of_ask hu with hu | rfl
  · exact h.idle u s hu hs
  · exact hs

/-- Nobody holds a reservation any more. -/
theorem TornDown.held (h : p.TornDown) : p.held = [] :=
  (List.append_eq_nil_iff.1 (h.sound.claimed.eq_nil h.quiet.idle)).1

/-- **What a caller does to a registrar** that was torn down. -/
theorem TornDown.registrar_direct (h : p.TornDown) {m : Move} (hm : m.isDirect = true) :
    (p.move m).registrar = p.registrar.serve m := by
  cases m with
  | reserve registry schema =>
    have hclosed : p.registrar.reserve registry schema = .error .registrarClosed :=
      Registrar.reserve_eq_error_iff.2 (.inl ⟨h.quiet.closed, rfl⟩)
    simp only [Publisher.move, Publisher.reserve, hclosed]
    rfl
  | drop k =>
    simp only [Publisher.move, drop, h.held]
    rfl
  | register k record handle =>
    simp only [Publisher.move, Publisher.register, h.held]
    rfl
  | unregister g => exact Registrar.unregister_of_empty h.slots g
  | newHandle | handleFor => rfl
  | ask | abandon | run | answerPublish | answerUnpublish => cases hm

/-- **A move changes a registrar** that was torn down only if a caller makes a handle or asks for
one. -/
theorem TornDown.registrar_move (h : p.TornDown) (m : Move) :
    (p.move m).TornDown ∧ (p.move m).registrar = p.registrar.serve m := by
  cases hm : m.isDirect with
  | true =>
    have hr := h.registrar_direct hm
    refine ⟨⟨h.sound.direct hm, hr ▸ h.quiet.serve m, ?_, fun u s hu => ?_⟩, hr⟩
    · rw [hr, Registrar.slots_serve, h.slots]
    · exact h.idle u s ((stage?_congr (tasks_of_isDirect p hm) u).symm.trans hu)
  | false =>
    have hsame : p.registrar.serve m = p.registrar := by
      cases m with
      | newHandle | handleFor => cases hm
      | _ => rfl
    rw [hsame]
    refine move_induction (P := fun q => q.TornDown ∧ q.registrar = p.registrar) m ?_ ?_ ?_ ?_
      ⟨h, rfl⟩
    · exact fun request _ => ⟨h.ask request, rfl⟩
    · exact fun _ _ _ hs ⟨hq, hr⟩ => ⟨hq.step hs, (hq.registrar_step hs).trans hr⟩
    · exact fun _ _ hs => ⟨h.reply hs, h.registrar_reply hs⟩
    · intro hd
      rw [hm] at hd
      cases hd

/-- **As long as a publisher moves** its registrar stays torn down. -/
theorem TornDown.registrar_moves (h : p.TornDown) (ms : List Move) :
    (p.moves ms).TornDown ∧ (p.moves ms).registrar = ms.foldl Registrar.serve p.registrar := by
  induction ms generalizing p with
  | nil => exact ⟨h, rfl⟩
  | cons m ms ih =>
    obtain ⟨hm, hr⟩ := h.registrar_move m
    obtain ⟨htorn, hfold⟩ := ih hm
    exact ⟨htorn, hfold.trans (by rw [hr]; rfl)⟩

/-! ## Every continuation -/

theorem Sound.counted_move (h : p.Sound) (hcount : p.registrar.Counted) (m : Move) :
    (p.move m).registrar.Counted := by
  cases hm : m.isDirect with
  | true => exact hcount.use (h.use_move hm)
  | false => exact hcount.changes (h.changes_move hm)

theorem Sound.counted_moves (h : p.Sound) (hcount : p.registrar.Counted) (ms : List Move) :
    (p.moves ms).registrar.Counted := by
  induction ms generalizing p with
  | nil => exact hcount
  | cons m ms ih => exact ih (h.move m) (h.counted_move hcount m)

theorem counted_fresh (id : String) (listening : Bool) (limit : Option Nat) :
    (fresh id listening limit).registrar.Counted where
  shut n hn := by cases hn
  stored n g hg := by cases hg

/-- **The moves `ms` tear the registrar down**: task `c` was asked to close, had its first turn when
the registrar was open, and has ended by the last of the moves. -/
structure TearsDownBy (start : Publisher) (ms : List Move) (c : Nat) : Prop where
  /-- The first turn of the task. -/
  begun : ∃ past future td, ms = past ++ .run c :: future ∧ c ∈ (start.moves past).ready ∧
    (start.moves past).stage? c = some (.asked (.close td)) ∧
    (start.moves past).registrar.closed = false
  /-- The last move ends it. -/
  last : ∃ before m, ms = before ++ [m] ∧ (start.moves before).outcome? c = none
  ended : ∃ o, (start.moves ms).outcome? c = some o

/-- **A handle that the registrar handed out** at some time of a run: it was stored. -/
def HandedOut (start : Publisher) (ms : List Move) (h : Handle) : Prop :=
  ∃ before after n, ms = before ++ after ∧
    (start.moves before).registrar.handles.get? n = some h

/-- The task stays at work until it ends. -/
theorem Closes.moves (hcl : p.Closes c) (h : p.Sound) (hkin : p.Kin) (ms : List Move)
    (hnone : (p.moves ms).outcome? c = none) : (p.moves ms).Closes c := by
  induction ms using List.reverseRecOn with
  | nil => exact hcl
  | append_singleton ms m ih =>
    have hbefore : (p.moves ms).outcome? c = none := by
      by_contra hsome
      obtain ⟨o, ho⟩ := Option.ne_none_iff_exists'.1 hsome
      have hlast := (h.moves ms).outcome?_moves [m] ho
      rw [moves_concat] at hnone
      rw [show (p.moves ms).moves [m] = (p.moves ms).move m from rfl, hnone] at hlast
      cases hlast
    rw [moves_concat]
    exact (ih hbefore).move (h.moves ms) (hkin.moves h ms) hbefore m

/-- **When the teardown ends** nothing is left, and nobody closes any more. -/
theorem TearsDownBy.bare {ms : List Move} (htd : TearsDownBy p ms c) (h : p.Sound) (hkin : p.Kin) :
    (p.moves ms).TornDown ∧ (p.moves ms).registrar.Bare := by
  have hcl : (p.moves ms).Closes c := by
    obtain ⟨past, future, td, rfl, hready, hc, hopen⟩ := htd.begun
    have hfirst := (h.moves past).closes_run (hkin.moves h past) hready hc hopen
    have hrun : (p.moves past).run c = p.moves (past ++ [.run c]) :=
      (moves_concat p past (.run c)).symm
    rw [hrun] at hfirst
    obtain ⟨before, m, hms, hnone⟩ := htd.last
    rcases List.eq_nil_or_concat future with rfl | ⟨init, m', rfl⟩
    · exact hfirst
    · rw [List.concat_eq_append] at hms ⊢
      have hsplit : past ++ .run c :: (init ++ [m']) = (past ++ [.run c] ++ init) ++ [m'] := by simp
      rw [hsplit] at hms ⊢
      obtain ⟨rfl, -⟩ := List.append_inj' hms rfl
      have hall := hfirst.moves (h.moves _) (hkin.moves h _) init (by rwa [← moves_append])
      rw [← moves_append] at hall
      rw [moves_concat]
      exact hall.move (h.moves _) (hkin.moves h _) hnone m'
  cases hcl with
  | atWork s hc hclosing hsole =>
    obtain ⟨o, ho⟩ := htd.ended
    rw [outcome?_eq_some_iff.1 ho] at hc
    cases hc
    exact hclosing.elim
  | isOver o hc hidle hbare => exact ⟨⟨h.moves ms, hbare.toQuiet, hbare.slots, hidle⟩, hbare⟩

/-- **What holds after a teardown**, whatever happens then: `torn` are the moves up to its end, and
`after` those that came later. -/
structure AfterTeardown (start : Publisher) (torn after : List Move) : Prop where
  /-- Nothing is live. -/
  live : (start.moves (torn ++ after)).registrar.registrations = []
  /-- Nothing can be reserved. -/
  refused : ∀ registry schema,
    (start.moves (torn ++ after)).registrar.reserve registry schema = .error .registrarClosed
  /-- All handles that were handed out until then are shut. -/
  shut : ∀ h, HandedOut start torn h → (start.moves (torn ++ after)).registrar.isShut h = true
  /-- There is a handle of a registry exactly if somebody asked for one after the teardown. -/
  names : ∀ n, n ∈ (start.moves (torn ++ after)).registrar.registryNames ↔
    ∃ o, .handleFor o ∈ after ∧ o.name = n
  /-- Such a handle is open. -/
  opened : ∀ n h, (start.moves (torn ++ after)).registrar.handles.get? n = some h →
    (start.moves (torn ++ after)).registrar.isShut h = false
  /-- Every handle that was ever handed out is shut or is such a handle. -/
  handles : ∀ h, HandedOut start (torn ++ after) h →
    (start.moves (torn ++ after)).registrar.isShut h = true ∨
      ∃ n, (start.moves (torn ++ after)).registrar.handles.get? n = some h
  /-- So there is no handle and all that were handed out are shut exactly if there was no such
  request. -/
  empty : ((start.moves (torn ++ after)).registrar.registryNames = [] ∧
      ∀ h, HandedOut start (torn ++ after) h →
        (start.moves (torn ++ after)).registrar.isShut h = true) ↔
    ∀ o, .handleFor o ∉ after

/-- A handle that was handed out is stored still, or it is shut. -/
theorem Sound.shut_of_handedOut {ms : List Move} {g : Handle} (h : p.Sound)
    (hout : HandedOut p ms g) :
    (∃ n, (p.moves ms).registrar.handles.get? n = some g) ∨
      g.number ∈ (p.moves ms).registrar.shut := by
  obtain ⟨before, after, n, rfl, hstored⟩ := hout
  rw [moves_append]
  exact (((h.moves before).keeps_moves after).handle n g hstored).imp_left fun hn => ⟨n, hn⟩

/-- **After a teardown**, in every continuation of every run: nothing is live and nothing can be
reserved, and the handles that were handed out are shut; but a request for a handle is served, with
one that is open and stays so. -/
theorem afterTeardown_moves (id : String) (listening : Bool) (limit : Option Nat)
    (torn after : List Move) (c : Nat)
    (htorn : TearsDownBy (fresh id listening limit) torn c) :
    AfterTeardown (fresh id listening limit) torn after := by
  have hsound := sound_fresh id listening limit
  have hkin := kin_fresh id listening limit
  obtain ⟨hdown, hbare⟩ := htorn.bare hsound hkin
  have hlater : ((fresh id listening limit).moves (torn ++ after)).TornDown ∧
      ((fresh id listening limit).moves (torn ++ after)).registrar =
        after.foldl Registrar.serve ((fresh id listening limit).moves torn).registrar := by
    rw [moves_append]
    exact hdown.registrar_moves after
  have hnames : ∀ n, n ∈ ((fresh id listening limit).moves (torn ++ after)).registrar.registryNames ↔
      ∃ o, .handleFor o ∈ after ∧ o.name = n := by
    intro n
    rw [Registrar.mem_registryNames_iff, ← Option.isSome_iff_exists, hlater.2,
      Registrar.isSome_handles_foldl_serve, hbare.handles]
    simp
  have hshut : ∀ h, HandedOut (fresh id listening limit) torn h →
      ((fresh id listening limit).moves (torn ++ after)).registrar.isShut h = true := by
    intro h hout
    rw [Registrar.isShut, hlater.2, Registrar.shut_foldl_serve, List.contains_iff_mem]
    rcases hsound.shut_of_handedOut hout with ⟨n, hstored⟩ | hshut
    · rw [hbare.handles] at hstored
      cases hstored
    · exact hshut
  have hopened : ∀ n h,
      ((fresh id listening limit).moves (torn ++ after)).registrar.handles.get? n = some h →
        ((fresh id listening limit).moves (torn ++ after)).registrar.isShut h = false := by
    have hcount := hsound.counted_moves (counted_fresh id listening limit) torn
    have hnostored : ∀ n h,
        ((fresh id listening limit).moves torn).registrar.handles.get? n = some h →
          ((fresh id listening limit).moves torn).registrar.made ≤ h.number := by
      intro n h hstored
      rw [hbare.handles] at hstored
      cases hstored
    have houtlives := Registrar.Outlives.foldl_serve ⟨hcount.shut, hnostored, Nat.le_refl _⟩ after
    rw [hlater.2]
    exact fun n h hstored => houtlives.isOpen hstored
  have hhandles : ∀ h, HandedOut (fresh id listening limit) (torn ++ after) h →
      ((fresh id listening limit).moves (torn ++ after)).registrar.isShut h = true ∨
        ∃ n, ((fresh id listening limit).moves (torn ++ after)).registrar.handles.get? n = some h := by
    intro h hout
    rcases hsound.shut_of_handedOut hout with hstored | hshut
    · exact .inr hstored
    · exact .inl (List.contains_iff_mem.2 hshut)
  have hnone : (∀ o, .handleFor o ∉ after) → ∀ n,
      n ∉ ((fresh id listening limit).moves (torn ++ after)).registrar.registryNames := by
    intro hno n hn
    obtain ⟨o, ho, -⟩ := (hnames n).1 hn
    exact hno o ho
  refine ⟨Registrar.registrations_of_empty hlater.1.slots, fun registry schema => ?_, hshut,
    hnames, hopened, hhandles, fun hempty o ho => ?_, fun hno => ⟨?_, fun h hout => ?_⟩⟩
  · exact Registrar.reserve_eq_error_iff.2 (.inl ⟨hlater.1.quiet.closed, rfl⟩)
  · have hmem := (hnames o.name).2 ⟨o, ho, rfl⟩
    rw [hempty.1] at hmem
    cases hmem
  · exact List.eq_nil_iff_forall_not_mem.2 (hnone hno)
  · rcases hhandles h hout with hshut | ⟨n, hstored⟩
    · exact hshut
    · exact (hnone hno n (Registrar.mem_registryNames_iff.2 ⟨h, hstored⟩)).elim

/-- A schema is published, and the registrar is closed and takes it back. -/
def publishedThenClosed : List Move :=
  [.ask (.publish { name := "r" } { schema := ⟨"s", "1"⟩ }), .run 0,
    .answerPublish 0 (.record ⟨"1", "s", none, {}⟩), .ask (.close .unpublishing), .run 1, .run 1,
    .answerUnpublish 2 (.ok ())]

theorem tearsDownBy_publishedThenClosed :
    TearsDownBy (fresh "id" true none) publishedThenClosed 1 where
  begun := ⟨publishedThenClosed.take 4, [.run 1, .answerUnpublish 2 (.ok ())], .unpublishing, rfl,
    by decide +kernel, by rfl, by decide +kernel⟩
  last := ⟨publishedThenClosed.take 6, .answerUnpublish 2 (.ok ()), rfl,
    Option.isNone_iff_eq_none.1 (by decide +kernel)⟩
  ended := Option.isSome_iff_exists.1 (by decide +kernel)

/-- A publish, a reservation and a second close, all of them too late. -/
def tooLate : List Move :=
  [.reserve "r" "s", .ask (.publish { name := "r" } { schema := ⟨"s", "2"⟩ }),
    .ask (.close .unpublishing), .run 3, .run 4]

theorem afterTeardown_tooLate :
    TearsDownBy (fresh "id" true none) publishedThenClosed 1 ∧ (∀ o, .handleFor o ∉ tooLate) ∧
      AfterTeardown (fresh "id" true none) publishedThenClosed tooLate :=
  ⟨tearsDownBy_publishedThenClosed, by simp [tooLate],
    afterTeardown_moves "id" true none _ _ 1 tearsDownBy_publishedThenClosed⟩

/-- The registrar is closed before anything is published. -/
def closedAtOnce : List Move := [.ask (.close .unpublishing), .run 0]

/-- **A handle after the teardown**: a caller who asks for one gets it, and it is open. -/
theorem handle_afterTeardown :
    TearsDownBy (fresh "id" true none) closedAtOnce 0 ∧
      ((fresh "id" true none).moves
        (closedAtOnce ++ [.handleFor { name := "r" }])).registrar.registryNames = ["r"] ∧
      ∃ h, HandedOut (fresh "id" true none) (closedAtOnce ++ [.handleFor { name := "r" }]) h ∧
        ((fresh "id" true none).moves
          (closedAtOnce ++ [.handleFor { name := "r" }])).registrar.isShut h = false := by
  refine ⟨⟨⟨[.ask (.close .unpublishing)], [], .unpublishing, rfl, by decide +kernel, by rfl,
    by decide +kernel⟩, ⟨[.ask (.close .unpublishing)], .run 0, rfl, by rfl⟩,
      Option.isSome_iff_exists.1 (by decide +kernel)⟩, by decide +kernel, ⟨0, { name := "r" }⟩,
    ⟨_, [], "r", (List.append_nil _).symm, by decide +kernel⟩, by decide +kernel⟩

end Publisher
end SchemaHerald
