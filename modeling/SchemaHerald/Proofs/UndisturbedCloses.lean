import SchemaHerald.Proofs.CloseReports

/-!
# Closes that nobody disturbs

A close has failures to report only where somebody else unpublishes what it is about to take back. As
long as nobody asks for an unpublish there is no such task: whoever has the registry called to
unpublish is a part of a teardown (`Unasked`), and there is one teardown at a time. So a close whose
calls get to the registry succeeds then, and nothing is left behind (`done_of_unasked`).

Turns and calls ask for nothing (`Sane.callers_turn`), so that it is enough to look at what the callers of
a publisher asked for.
-/
namespace SchemaHerald

/-- A task has its turn, or its call gets to the registry. -/
def LocalMove.IsTurn : LocalMove → Prop
  | .apart (.run _) | .call _ => True
  | _ => False

/-- What no task is about that is a part of another one: what was asked for by a caller, but for
publishes. -/
def Stage.IsCallers : Stage → Prop
  | .asked (.publish ..) => False
  | .asked _ => True
  | _ => False

namespace Publisher

open Relation

variable {p q : Publisher} {t u : Nat} {s s' : Stage}

/-- **Nobody asked for an unpublish**: whoever has the registry called to unpublish is a part of
another task. -/
structure Unasked (p : Publisher) : Prop where
  asked : ∀ t g, p.stage? t ≠ some (.asked (.unpublish g))
  part : ∀ t g, p.stage? t = some (.unpublishing g) → p.parent? t ≠ none

/-- No task goes on to something that a caller asks for. -/
theorem not_callers_of_next (hn : s.Next s') : ¬ s'.IsCallers := by
  cases hn <;> exact id

theorem not_callers_of_fresh (h : s.IsFresh) : ¬ s.IsCallers := by
  cases s with
  | asked request => cases request <;> first | exact id | exact h.elim
  | _ => exact id

/-- **In a step** nothing is asked for that a caller asks for. -/
theorem Sound.callers_step (h : p.Sound) (hs : Step t p q) (hu : q.stage? u = some s)
    (hcallers : s.IsCallers) : p.stage? u = some s := by
  rcases h.came_step hs hu with hsame | ⟨s₀, -, hn⟩ | ⟨-, hfresh⟩
  · exact hsame
  · exact absurd hcallers (not_callers_of_next hn)
  · exact absurd hcallers (not_callers_of_fresh hfresh)

/-- **In a reply** nothing is asked for that a caller asks for. -/
theorem Sound.callers_reply (h : p.Sound) (hs : Reply t p q) (hu : q.stage? u = some s)
    (hcallers : s.IsCallers) : p.stage? u = some s := by
  rcases h.came_reply hs hu with hsame | ⟨s₀, -, hn⟩
  · exact hsame
  · exact absurd hcallers (not_callers_of_next hn)

theorem Sound.callers_steps (h : p.Sound) (hs : ReflTransGen (Step t) p q)
    (hu : q.stage? u = some s) (hcallers : s.IsCallers) : p.stage? u = some s := by
  induction hs with
  | refl => exact hu
  | tail hsteps hstep ih => exact ih ((h.steps hsteps).callers_step hstep hu hcallers)

theorem Unasked.step (hun : p.Unasked) (h : p.Sound) (hs : Step t p q) : q.Unasked where
  asked u g hu := hun.asked u g (h.callers_step hs hu trivial)
  part u g hu := by
    rcases h.came_step hs hu with hsame | ⟨s, hs₀, hn⟩ | ⟨hnew, -⟩
    · rw [(h.grown_step hs).parent?_of_lt (lt_length_of_stage? hsame)]
      exact hun.part u g hsame
    · cases hn
      exact absurd hs₀ (hun.asked u g)
    · rw [(h.grown_step hs).parent?_of_fresh hnew hu]
      simp

theorem Unasked.reply (hun : p.Unasked) (h : p.Sound) (hs : Reply t p q) : q.Unasked where
  asked u g hu := hun.asked u g (h.callers_reply hs hu trivial)
  part u g hu := by
    rcases h.came_reply hs hu with hsame | ⟨s, hs₀, hn⟩
    · rw [(h.sameShape_reply hs).2]
      exact hun.part u g hsame
    · cases hn
      exact absurd hs₀ (hun.asked u g)

theorem Unasked.steps (hun : p.Unasked) (h : p.Sound) (hs : ReflTransGen (Step t) p q) :
    q.Unasked := by
  induction hs with
  | refl => exact hun
  | tail hsteps hstep ih => exact ih.step (h.steps hsteps) hstep

theorem Unasked.ask (hun : p.Unasked) {request : Request} (hr : ∀ g, request ≠ .unpublish g) :
    (p.ask request).Unasked where
  asked u g hu := by
    rcases stage?_of_ask hu with hold | he
    · exact hun.asked u g hold
    · cases he
      exact hr g rfl
  part u g hu := by
    rcases stage?_of_ask hu with hold | he
    · rw [parent?_ask]
      exact hun.part u g hold
    · cases he

theorem unasked_fresh (id : String) (listening : Bool) (limit : Option Nat) :
    (fresh id listening limit).Unasked where
  asked t g ht := by simp [fresh, stage?] at ht
  part t g ht := by simp [fresh, stage?] at ht

end Publisher

namespace LocalPublisher

open Relation Publisher

variable {l l' : LocalPublisher} {t c : Nat} {g : Registration} {m : LocalMove}
  {ms : List LocalMove} {o : Outcome}

/-! ## Turns -/

theorem allows_of_isTurn (hm : m.IsTurn) : l.Allows m := by
  cases m with
  | apart m => cases m <;> first | rfl | exact hm.elim
  | call t => trivial

theorem allowsAll_of_isTurn (hms : ∀ m ∈ ms, m.IsTurn) : l.AllowsAll ms := by
  induction ms generalizing l with
  | nil => trivial
  | cons m ms ih =>
    exact ⟨allows_of_isTurn (hms m List.mem_cons_self),
      ih fun m' hm' => hms m' (List.mem_cons_of_mem m hm')⟩

theorem arrives_of_isTurn (hm : m.IsTurn) : m.Arrives := by
  cases m with
  | apart m => cases m <;> trivial
  | call t => trivial

/-- **In a turn** nothing is asked for that a caller asks for. -/
theorem Sane.callers_turn {s : Stage} (h : l.Sane) (hm : m.IsTurn)
    (ht : (l.move m).publisher.stage? t = some s) (hcallers : s.IsCallers) :
    l.publisher.stage? t = some s := by
  have hsound := h.owned.sound
  cases m with
  | apart m =>
    cases m with
    | run u => exact hsound.callers_steps (run_steps l.publisher u) ht hcallers
    | _ => exact hm.elim
  | call u =>
    rcases l.call_answered u with he | ha
    · rwa [LocalPublisher.move, he] at ht
    · exact hsound.callers_reply ha.reply ht hcallers

/-! ## Closes -/

theorem Sane.unasked_move (h : l.Sane) (hm : l.Allows m) (hun : l.publisher.Unasked)
    (hno : ∀ g, m ≠ .apart (.ask (.unpublish g))) : (l.move m).publisher.Unasked := by
  rcases move_cases hm h.owned with ⟨request, rfl, -, -⟩ | ⟨t, rfl⟩ | ⟨t, rfl⟩ | he | ⟨t, ha⟩
  · exact hun.ask fun g he => hno g (by rw [he])
  · exact hun.steps h.owned.sound (abandon_steps l.publisher t)
  · exact hun.steps h.owned.sound (run_steps l.publisher t)
  · rwa [he]
  · exact hun.reply h.owned.sound ha.reply

/-- **In a run in which nobody asks for an unpublish** nobody has asked for one at any time. -/
theorem unasked_moves (h : l.Sane) (hms : l.AllowsAll ms) (hun : l.publisher.Unasked)
    (hno : ∀ g, .apart (.ask (.unpublish g)) ∉ ms) : (l.moves ms).publisher.Unasked := by
  induction ms generalizing l with
  | nil => exact hun
  | cons m ms ih =>
    obtain ⟨hm, hrest⟩ := hms
    exact ih (h.move hm) hrest
      (h.unasked_move hm hun fun g he => hno g (he ▸ List.mem_cons_self))
      fun g hmem => hno g (List.mem_cons_of_mem m hmem)

theorem Shutdown.sole (hs : l.Shutdown c) : SoleCloser l.publisher c := by
  cases hs with
  | waits hc hsole | takesBack d hc hsole | isOver d hc hsole => exact hsole

/-- **Nothing is taken away from a teardown** by others if nobody asked for an unpublish. -/
theorem Sane.not_takesApart (h : l.Sane) (hun : l.publisher.Unasked)
    (hsole : SoleCloser l.publisher c) : ¬ l.TakesApart t c g := by
  rintro ⟨-, hother, ht, -, -⟩
  obtain ⟨c', hc'⟩ := Option.ne_none_iff_exists'.1 (hun.part t g ht)
  rcases h.owned.kin.part_cases h.owned.sound.parents ht hc' with
    ⟨b, -, hmember⟩ | ⟨d, m, hd, -⟩ | ⟨o, he⟩
  · exact hmember
  · rw [hsole c' _ hd trivial] at hc'
    exact hother hc'
  · cases he

/-- **In a run in which nobody asks for an unpublish** nothing is taken away from a teardown. -/
theorem not_takenApart (base : Option String) (id : String) (listening : Bool) (limit : Option Nat)
    (hms : (fresh base id listening limit).AllowsAll ms)
    (hno : ∀ g, .apart (.ask (.unpublish g)) ∉ ms) :
    ¬ TakenApart (fresh base id listening limit) ms c g := by
  rintro ⟨past, t, future, rfl, htakes⟩
  have hfresh := sane_fresh base id listening limit
  obtain ⟨hpast, -⟩ := allowsAll_append.1 hms
  have hsane := sane_moves hfresh hpast
  obtain ⟨d, hd, -⟩ := htakes.teardown
  have hun := unasked_moves hfresh hpast (unasked_fresh id listening limit) fun g hmem =>
    hno g (List.mem_append_left _ hmem)
  cases standing_moves base id listening limit hpast with
  | isOpen hopen hmirror => exact hsane.owned.sound.not_closing hopen hd trivial
  | isClosed c' hby hshut =>
    obtain rfl : c = c' := hshut.sole c _ hd trivial
    exact hsane.not_takesApart hun hshut.sole htakes

/-- **A close that nobody disturbs succeeds.** In a run in which nobody asks for an unpublish and all
calls get to the registry, whatever order they get there in, a close that has ended has succeeded; no
record is left, nothing is live, and there are no handles. -/
theorem done_of_unasked (base : Option String) (id : String) (listening : Bool) (limit : Option Nat)
    (hms : (fresh base id listening limit).AllowsAll ms) (harrives : ∀ m ∈ ms, m.Arrives)
    (hno : ∀ g, .apart (.ask (.unpublish g)) ∉ ms)
    (hby : ClosedBy (fresh base id listening limit) ms c)
    (hout : ((fresh base id listening limit).moves ms).publisher.outcome? c = some o) :
    o = .done ∧ ((fresh base id listening limit).moves ms).memory.stored = [] ∧
      ((fresh base id listening limit).moves ms).publisher.registrar.Bare := by
  rw [outcome?_eq_some_iff] at hout
  have hbare : ((fresh base id listening limit).moves ms).publisher.registrar.Bare := by
    cases standing_moves base id listening limit hms with
    | isOpen hopen hmirror =>
      obtain ⟨past, future, rfl, -, -, hclosed⟩ := hby
      have hsane := sane_fresh base id listening limit
      rw [List.append_cons] at hms hopen
      obtain ⟨hfirst, hrest⟩ := allowsAll_append.1 hms
      rw [moves_append, closed_moves (sane_moves hsane hfirst) hrest hclosed] at hopen
      cases hopen
    | isClosed c' hby' hshut =>
      obtain rfl := hby.eq hby' (sane_fresh base id listening limit) hms
      cases hshut with
      | isOver d hc hsole hd hends hbare howes => exact hbare
      | waits hc | takesBack d hc => cases hout.symm.trans hc
  cases reckons_moves base id listening limit hms harrives hby with
  | waits hc | takesBack d hc => cases hout.symm.trans hc
  | isOver d hc hd hends hf hnil =>
    obtain rfl := Stage.ended.inj (Option.some.inj (hout.symm.trans hc))
    -- whatever had failed would have been taken away by somebody
    have hparts : d.removals.filterMap Removal.part? = [] := by
      refine List.eq_nil_iff_forall_not_mem.2 fun part hpart => ?_
      obtain ⟨m, hm, failure, ho, -⟩ := mem_parts_iff.1 hpart
      exact not_takenApart base id listening limit hms hno
        ((hf.failed_iff hd hends hm).1 ⟨failure, ho⟩)
    refine ⟨?_, hnil, hbare⟩
    rw [Drain.outcome, hparts]
    rfl

end LocalPublisher
end SchemaHerald
