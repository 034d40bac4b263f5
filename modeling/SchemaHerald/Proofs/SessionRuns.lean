import SchemaHerald.Proofs.MemoryBatches
import SchemaHerald.Session.Memory

/-!
# Sessions are runs of turns and calls

A session with the registry in memory gives the tasks that are ready their turns, one after the other,
and lets each call that begins get to the registry at once. So what it does is a run like any other
(`settle_turns`), after each turn nobody waits for an answer (`allAnswered_runTask`), and nobody ever
sleeps (`await_memory`).

Whether such a session comes to rest is a matter of what there is left to do. `ComesToRest` says that
each turn leaves less of it and that no call adds to it; then the turns that a session allows itself
are enough if there is no more to do than that (`ComesToRest.settle`).
-/
namespace SchemaHerald

open LocalPublisher

/-- The publisher of a session, with its registry. -/
def Session.toLocal (r : Session MemoryRegistry) : LocalPublisher := ⟨r.publisher, r.state⟩

/-- **Nobody waits for an answer.** -/
def Publisher.AllAnswered (p : Publisher) : Prop := ∀ t s, p.stage? t = some s → ¬ s.IsCalling

namespace LocalPublisher

variable {l : LocalPublisher} {ts : List Nat}

/-- **When everybody's call gets to the registry** nobody waits any more. -/
theorem allAnswered_of_calls (h : l.Sane)
    (hts : ∀ t s, l.publisher.stage? t = some s → s.IsCalling → t ∈ ts) :
    (l.moves (ts.map .call)).publisher.AllAnswered := by
  induction ts generalizing l with
  | nil => exact fun t s ht hcall => List.not_mem_nil (hts t s ht hcall)
  | cons t ts ih =>
    refine ih (h.move (m := .call t) trivial) fun u s hu hcall => ?_
    -- the task `t` waits no more, and whoever does has done so before
    have hold : u ≠ t ∧ l.publisher.stage? u = some s := by
      rcases l.call_answered t with he | ha
      · rw [LocalPublisher.move, he] at hu
        refine ⟨fun hut => ?_, hu⟩
        subst hut
        have ha := answered_of_calling hu hcall (h.owned.stages u s hu)
        rw [he] at ha
        exact (h.owned.sound.calling_reply ha.reply hu hcall).1 rfl
      · exact h.owned.sound.calling_reply ha.reply hu hcall
    exact (List.mem_cons.1 (hts u s hold.2 hcall)).resolve_left hold.1

end LocalPublisher

namespace Session

variable {r : Session MemoryRegistry} {t n : Nat} {es : List Entry}

/-! ## Turns -/

theorem delay_memory (r : Session MemoryRegistry) (e : Entry) : r.delay .memory e = 0 := by
  cases e <;> rfl

theorem sleepers_answer (r : Session MemoryRegistry) (t : Nat) :
    (r.answer .memory t).sleepers = r.sleepers := by
  unfold answer
  split <;> rfl

/-- A call is answered at once. -/
theorem takeUp_memory (r : Session MemoryRegistry) (e : Entry) :
    r.takeUp .memory e = (e.task?.map (r.answer .memory)).getD r := by
  unfold takeUp
  cases e.task? with
  | none => rfl
  | some t => simp only [delay_memory, Option.map_some, Option.getD_some]

/-- **The calls of a list of entries** are answered one after the other. -/
theorem takeUps_memory (h : r.toLocal.Sane) (es : List Entry) :
    (es.foldl (takeUp .memory) r).toLocal =
        r.toLocal.moves ((es.filterMap Entry.task?).map .call) ∧
      (es.foldl (takeUp .memory) r).sleepers = r.sleepers := by
  induction es generalizing r with
  | nil => exact ⟨rfl, rfl⟩
  | cons e es ih =>
    rw [List.foldl_cons, takeUp_memory]
    cases he : e.task? with
    | none =>
      rw [List.filterMap_cons_none he]
      exact ih h
    | some t =>
      rw [List.filterMap_cons_some he, List.map_cons, Option.map_some, Option.getD_some]
      have hcall : (r.answer .memory t).toLocal = r.toLocal.call t :=
        answer_memory r (h.owned.stages t)
      obtain ⟨hlocal, hsleepers⟩ := ih (r := r.answer .memory t) (by
        rw [hcall]
        exact h.move (m := .call t) trivial)
      rw [hcall] at hlocal
      exact ⟨hlocal, hsleepers.trans (sleepers_answer r t)⟩

/-- The tasks whose calls begin in a turn. -/
def callers (r : Session MemoryRegistry) (t : Nat) : List Nat :=
  (r.fresh (r.publisher.run t)).reverse.filterMap Entry.task?

/-- **The turn of a task** in a session is its turn and the calls that begin in it. -/
theorem toLocal_runTask (h : r.toLocal.Sane) (t : Nat) :
    (r.runTask .memory t).toLocal =
        (r.toLocal.move (.apart (.run t))).moves ((r.callers t).map .call) ∧
      (r.runTask .memory t).sleepers = r.sleepers :=
  takeUps_memory (r := r.become (r.publisher.run t)) (h.move (m := .apart (.run t)) rfl) _

/-- What is new in a journal is what a session takes for new. -/
theorem fresh_eq {q : Publisher} {new : List Entry} (h : q.journal = new ++ r.publisher.journal) :
    r.fresh q = new := by
  unfold fresh
  rw [h, List.length_append, Nat.add_sub_cancel, List.take_left]

/-- **After the turn of a task** nobody waits for an answer, if nobody did before. -/
theorem allAnswered_runTask (hall : r.publisher.AllAnswered) (h : r.toLocal.Sane) (t : Nat) :
    (r.runTask .memory t).publisher.AllAnswered := by
  obtain ⟨new, hjournal, hcalls⟩ := h.owned.sound.calls_run t
  have hcallers : r.callers t = new.reverse.filterMap Entry.task? := by
    rw [callers, fresh_eq (q := r.publisher.run t) hjournal]
  have hlocal := (toLocal_runTask h t).1
  show (r.runTask .memory t).toLocal.publisher.AllAnswered
  rw [hlocal, hcallers]
  refine allAnswered_of_calls (h.move (m := .apart (.run t)) rfl) fun u s hu hcall => ?_
  rw [List.filterMap_reverse, List.mem_reverse]
  exact (hcalls u s hu hcall).resolve_left fun hold => hall u s hold hcall

/-! ## Runs -/

/-- **What a session does** while it gives turns is a run of turns and calls, and nobody sleeps. -/
theorem runReady_turns (h : r.toLocal.Sane) (n : Nat) :
    (∃ ms : List LocalMove, (∀ m ∈ ms, m.IsTurn) ∧
      (runReady .memory n r).toLocal = r.toLocal.moves ms) ∧
      (runReady .memory n r).sleepers = r.sleepers := by
  induction n generalizing r with
  | zero => exact ⟨⟨[], by simp, rfl⟩, rfl⟩
  | succ n ih =>
    unfold runReady
    cases hready : r.publisher.ready with
    | nil => exact ⟨⟨[], by simp, rfl⟩, rfl⟩
    | cons t rest =>
      obtain ⟨hlocal, hsleepers⟩ := toLocal_runTask h t
      have hturns : ∀ m ∈ .apart (.run t) :: (r.callers t).map LocalMove.call, m.IsTurn := by
        simp [LocalMove.IsTurn]
      have hsane := sane_moves h (allowsAll_of_isTurn hturns)
      obtain ⟨⟨ms, hms, he⟩, hsleepers'⟩ := ih (r := r.runTask .memory t) (hlocal.symm ▸ hsane)
      refine ⟨⟨(.apart (.run t) :: (r.callers t).map .call) ++ ms,
        List.forall_mem_append.2 ⟨hturns, hms⟩, ?_⟩, hsleepers'.trans hsleepers⟩
      rw [he, hlocal, moves_append]
      rfl

theorem settle_turns (h : r.toLocal.Sane) :
    (∃ ms : List LocalMove, (∀ m ∈ ms, m.IsTurn) ∧
      (r.settle .memory).toLocal = r.toLocal.moves ms) ∧
      (r.settle .memory).sleepers = r.sleepers :=
  runReady_turns h r.turns

theorem awaitWithin_of_awake (hsleepers : r.sleepers = []) (t : Nat) (deadline : Option Nat) :
    awaitWithin .memory t deadline n r = r := by
  cases n with
  | zero => rfl
  | succ n => simp only [awaitWithin, nextSleeper?, hsleepers, List.foldl_nil, ite_self]

/-- **Nobody sleeps**, so that all there is to wait for is that the session comes to rest. -/
theorem await_memory (h : r.toLocal.Sane) (hsleepers : r.sleepers = []) (t : Nat)
    (deadline : Option Nat) : r.await .memory t deadline = r.settle .memory :=
  awaitWithin_of_awake ((settle_turns h).2.trans hsleepers) t deadline

/-! ## Rest -/

/-- **What comes to rest**: where `Inv` holds, `left` bounds what there is to do. A turn leaves less of
it, and a call adds nothing. -/
structure ComesToRest (Inv : LocalPublisher → Prop) (left : LocalPublisher → Nat) : Prop where
  sane : ∀ l, Inv l → l.Sane
  run : ∀ l t, Inv l → t ∈ l.publisher.ready →
    Inv (l.move (.apart (.run t))) ∧ left (l.move (.apart (.run t))) + 1 ≤ left l
  call : ∀ l t, Inv l → Inv (l.call t) ∧ left (l.call t) ≤ left l

variable {Inv : LocalPublisher → Prop} {left : LocalPublisher → Nat}

theorem ComesToRest.calls (hrest : ComesToRest Inv left) {l : LocalPublisher} (h : Inv l)
    (ts : List Nat) : Inv (l.moves (ts.map .call)) ∧ left (l.moves (ts.map .call)) ≤ left l := by
  induction ts generalizing l with
  | nil => exact ⟨h, le_rfl⟩
  | cons t ts ih =>
    obtain ⟨hnext, hle⟩ := hrest.call l t h
    obtain ⟨hlast, hle'⟩ := ih hnext
    exact ⟨hlast, hle'.trans hle⟩

theorem ComesToRest.runTask (hrest : ComesToRest Inv left) (h : Inv r.toLocal)
    (hready : t ∈ r.publisher.ready) :
    Inv (r.runTask .memory t).toLocal ∧ left (r.runTask .memory t).toLocal + 1 ≤ left r.toLocal := by
  obtain ⟨hturn, hlt⟩ := hrest.run r.toLocal t h hready
  obtain ⟨hcalls, hle⟩ := hrest.calls hturn (r.callers t)
  rw [(toLocal_runTask (hrest.sane _ h) t).1]
  exact ⟨hcalls, by omega⟩

/-- **A session comes to rest** if it may take as many turns as there is left to do. -/
theorem ComesToRest.runReady (hrest : ComesToRest Inv left) (h : Inv r.toLocal)
    (hall : r.publisher.AllAnswered) (hn : left r.toLocal ≤ n) :
    Inv (runReady .memory n r).toLocal ∧ (runReady .memory n r).publisher.AllAnswered ∧
      (runReady .memory n r).publisher.ready = [] := by
  induction n generalizing r with
  | zero =>
    refine ⟨h, hall, List.eq_nil_iff_forall_not_mem.2 fun t ht => ?_⟩
    have hlt := (hrest.runTask h ht).2
    omega
  | succ n ih =>
    unfold Session.runReady
    cases hready : r.publisher.ready with
    | nil => exact ⟨h, hall, hready⟩
    | cons t rest =>
      obtain ⟨hnext, hlt⟩ := hrest.runTask h (t := t) (by simp [hready])
      exact ih hnext (allAnswered_runTask hall (hrest.sane _ h) t) (by omega)

theorem ComesToRest.settle (hrest : ComesToRest Inv left) (h : Inv r.toLocal)
    (hall : r.publisher.AllAnswered) (hturns : left r.toLocal ≤ r.turns) :
    Inv (r.settle .memory).toLocal ∧ (r.settle .memory).publisher.AllAnswered ∧
      (r.settle .memory).publisher.ready = [] :=
  hrest.runReady h hall hturns

end Session
end SchemaHerald
