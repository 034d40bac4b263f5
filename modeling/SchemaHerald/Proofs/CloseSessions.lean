import SchemaHerald.Proofs.BatchSessions

/-!
# A close comes to rest in a session

A session with the registry in memory whose tasks have all ended and that is asked to close has enough
turns for it (`settled_close`): a close that finds nothing reserved begins in its first turn, and takes
up one registration in each turn after it, the last of which is answered at once.
-/
namespace SchemaHerald

/-- How many registrations a close has to take up yet, with the beginning of it. -/
def Stage.toTakeUp (r : Registrar) : Stage → Nat
  | .asked _ => r.registrations.length + 1
  | .draining d => d.rest.length
  | _ => 0

namespace Publisher

variable {p : Publisher} {t u c : Nat} {s : Stage} {out : Outcome}

/-! ## How far the close has come -/

/-- **How far a close has come** that nobody else works beside. -/
inductive CloseProgress (c : Nat) (p : Publisher) : Prop
  | waits (hasked : p.stage? c = some (.asked (.close .unpublishing)))
      (hopen : p.registrar.closed = false) (hready : c ∈ p.ready)
  | takesBack (d : Drain) (hc : p.stage? c = some (.draining d)) (hd : d.isComplete = false)
      (hready : d.rest ≠ [] → c ∈ p.ready)
  | isOver (out : Outcome) (hout : p.stage? c = some (.ended out))

/-- How much there is left to do when there is only a close. -/
def closeWork (c : Nat) (p : Publisher) : Nat :=
  p.ready.length + ((p.stage? c).map (Stage.toTakeUp p.registrar)).getD 0

theorem closeWork_eq (hc : p.stage? c = some s) :
    p.closeWork c = p.ready.length + Stage.toTakeUp p.registrar s := by
  rw [closeWork, hc]
  rfl

/-- A task that waits for an answer or has ended only loses its turn. -/
theorem run_of_still (hready : t ∈ p.ready) (hstill : ∀ s, p.stage? t = some s → s.IsStill) :
    p.run t = { p with ready := p.ready.erase t } := by
  cases ht : p.tasks[t]? with
  | none => simp only [run, List.contains_iff_mem.2 hready, ite_true, ht]
  | some task =>
    obtain ⟨s, parent⟩ := task
    have hs := hstill s (stage?_eq_some_iff.2 ⟨parent, ht⟩)
    cases s with
    | publishing | unpublishing | tryingPublish | tryingUnpublish | ended =>
      simp only [run, List.contains_iff_mem.2 hready, ite_true, ht]
    | _ => exact hs.elim

/-- **A close begins** when nothing is reserved: it has ended if nothing is live, and otherwise it is to
take back what is. -/
theorem Owned.run_close_idle (h : p.Owned) (hready : c ∈ p.ready)
    (hasked : p.stage? c = some (.asked (.close .unpublishing)))
    (hopen : p.registrar.closed = false) (hidle : p.registrar.inFlight = 0) :
    (∀ u, u ≠ c → (p.run c).stage? u = p.stage? u ∧ (p.run c).parent? u = p.parent? u) ∧
      (((p.run c).stage? c = some (.ended .done) ∧ (p.run c).ready = p.ready.erase c) ∨
        (p.registrar.registrations ≠ [] ∧
          (p.run c).stage? c = some (.draining { rest := p.registrar.registrations }) ∧
          (p.run c).ready = c :: p.ready.erase c)) := by
  obtain ⟨parent, htask⟩ := stage?_eq_some_iff.1 hasked
  have horphan : p.parent? c = none :=
    h.kin.orphan h.sound.parents hasked id (by simp) (by simp)
  have hrun : p.run c = (({ p with ready := p.ready.erase c } : Publisher).withRegistrar
      p.registrar.close).beginDrain c .unpublishing := by
    have hidle' : p.registrar.close.inFlight = 0 := hidle
    simp only [run, List.contains_iff_mem.2 hready, ite_true, htask, begin, beginClose, hopen,
      Bool.false_eq_true, ite_false, tearDown, registrar_withRegistrar, hidle']
  rw [hrun]
  unfold beginDrain
  dsimp only
  split
  · rw [finish_of_orphan (by exact horphan)]
    exact ⟨fun u hu => ⟨stage?_setStage_of_ne hu, parent?_setStage ..⟩,
      .inl ⟨stage?_setStage_self hasked, rfl⟩⟩
  · rename_i hlive
    exact ⟨fun u hu => ⟨stage?_setStage_of_ne hu, parent?_setStage ..⟩,
      .inr ⟨fun hnil => hlive (List.isEmpty_iff.2 hnil), stage?_setStage_self hasked, rfl⟩⟩

/-- **A close takes up the next registration.** -/
theorem run_drain (hready : c ∈ p.ready) {d : Drain} (hc : p.stage? c = some (.draining d))
    {g : Registration} {rest : List Registration} (hrest : d.rest = g :: rest) :
    (p.run c).stage? c = some (.draining
        { rest, removals := d.removals ++ [⟨p.tasks.length, g, none⟩] }) ∧
      (∀ u s, u ≠ c → (p.run c).stage? u = some s →
        (p.stage? u = some s ∧ (p.run c).parent? u = p.parent? u) ∨
          (s = .unpublishing g ∧ (p.run c).parent? u = some c)) ∧
      (p.run c).ready = if rest.isEmpty then p.ready.erase c else c :: p.ready.erase c := by
  obtain ⟨parent, htask⟩ := stage?_eq_some_iff.1 hc
  have hrun : p.run c = Publisher.see { p.withRemoval c d g rest with
      ready := if rest.isEmpty then p.ready.erase c else c :: p.ready.erase c }
        (.unpublishCall p.tasks.length g) := by
    simp only [run, List.contains_iff_mem.2 hready, ite_true, htask, drainNext, hrest]
    rfl
  rw [hrun]
  refine ⟨stage?_setStage_self (stage?_append_of_some rfl hc), fun u s hu hs => ?_, rfl⟩
  have hs' : (p.withRemoval c d g rest).stage? u = some s := hs
  rw [withRemoval, stage?_setStage_of_ne hu, stage?_append (p := p) rfl] at hs'
  have hparent : (p.withRemoval c d g rest).parent? u = if u = p.tasks.length then some c else
      p.parent? u := parent?_withRemoval d g rest u
  split at hs'
  · rename_i hlt
    rw [if_neg (Nat.ne_of_lt hlt)] at hparent
    exact .inl ⟨hs', hparent⟩
  · obtain ⟨task, htask, rfl⟩ := Option.map_eq_some_iff.1 hs'
    obtain ⟨hlast, -⟩ := List.getElem?_eq_some_iff.1 htask
    rw [List.length_singleton] at hlast
    rw [if_pos (by omega)] at hparent
    rw [List.mem_singleton.1 (List.mem_of_getElem? htask)]
    exact .inr ⟨rfl, hparent⟩

/-- **The end of a removal** is noted by its close, which may be over by it. -/
theorem CloseProgress.finish {d : Drain} (hself : p.parent? t ≠ some t)
    (ht : p.stage? t = some s) (hp : p.parent? t = some c) (hc : p.stage? c = some (.draining d))
    (hready : d.rest ≠ [] → c ∈ p.ready) (out : Outcome) :
    CloseProgress c (p.finish t out) ∧
      (p.finish t out).closeWork c ≤ p.ready.length + d.rest.length := by
  have hne : c ≠ t := fun he => hself (he ▸ hp)
  cases finished_finish hself ht out with
  | alone hparent hq => exact absurd hc ((hparent c hp).2 d)
  | noted c₀ b b' hp₀ hb =>
    cases hp.symm.trans hp₀
    cases hc.symm.trans hb
  | drained c₀ d₀ hp₀ hd hopen hq =>
    cases hp.symm.trans hp₀
    cases hc.symm.trans hd
    have hc' : (p.finish t out).stage? c = some (.draining (d.note t out)) := by
      rw [hq]
      exact stage?_setStage_self ((stage?_setStage_of_ne hne).trans hc)
    have hready' : (p.finish t out).ready = p.ready := by
      rw [hq]
      rfl
    exact ⟨.takesBack _ hc' hopen fun hrest => hready' ▸ hready hrest,
      (closeWork_eq hc').le.trans (by rw [hready']; rfl)⟩
  | released c₀ d₀ hp₀ hd hdone hq =>
    cases hp.symm.trans hp₀
    cases hc.symm.trans hd
    have hc' : (p.finish t out).stage? c = some (.ended (d.note t out).outcome) := by
      rw [hq]
      exact stage?_setStage_self ((stage?_setStage_of_ne (p := p) hne).trans hc)
    refine ⟨.isOver _ hc', (closeWork_eq hc').le.trans ?_⟩
    rw [hq]
    exact Nat.le_add_right ..

end Publisher

namespace LocalPublisher

open Publisher

variable {l : LocalPublisher} {t n c : Nat} {o : RegistryOptions} {ds : List Definition}

/-- **A close in a session**: all other tasks have ended, or they are removals of it that wait for
their answers. -/
structure ClosingDown (c : Nat) (l : LocalPublisher) : Prop where
  sane : l.Sane
  others : ∀ t s, t ≠ c → l.publisher.stage? t = some s →
    (∃ out, s = .ended out) ∨ (∃ g, s = .unpublishing g) ∧ l.publisher.parent? t = some c
  progress : CloseProgress c l.publisher

theorem ClosingDown.still (h : ClosingDown c l) (htc : t ≠ c) {s : Stage}
    (ht : l.publisher.stage? t = some s) : s.IsStill := by
  rcases h.others t s htc ht with ⟨out, rfl⟩ | ⟨⟨g, rfl⟩, -⟩ <;> trivial

theorem ClosingDown.not_publishing (h : ClosingDown c l) {k : Key} {handle : Handle}
    {d : Definition} : l.publisher.stage? t ≠ some (.publishing k handle d) := by
  intro ht
  by_cases htc : t = c
  · subst htc
    cases h.progress with
    | waits hasked => cases hasked.symm.trans ht
    | takesBack d' hc => cases hc.symm.trans ht
    | isOver out hout => cases hout.symm.trans ht
  · rcases h.others t _ htc ht with ⟨out, he⟩ | ⟨⟨g, he⟩, -⟩ <;> cases he

/-- Nothing is reserved, since nobody publishes. -/
theorem ClosingDown.idle (h : ClosingDown c l) : l.publisher.registrar.inFlight = 0 := by
  have hnone : l.publisher.flights = [] := by
    refine List.eq_nil_iff_forall_not_mem.2 fun k hk => ?_
    obtain ⟨t, s, ht, hkey⟩ := mem_flights_iff.1 hk
    cases s with
    | publishing => exact h.not_publishing ht
    | _ => cases hkey
  rw [h.sane.owned.claimed.count, hnone, List.length_nil]

/-- **A removal that waits for its answer** is one of the close. -/
theorem ClosingDown.removal (h : ClosingDown c l) {g : Registration}
    (ht : l.publisher.stage? t = some (.unpublishing g)) :
    l.publisher.parent? t = some c ∧ ∃ d, l.publisher.stage? c = some (.draining d) ∧
      (d.rest ≠ [] → c ∈ l.publisher.ready) := by
  have htc : t ≠ c := by
    rintro rfl
    cases h.progress with
    | waits hasked => cases hasked.symm.trans ht
    | takesBack d hc => cases hc.symm.trans ht
    | isOver out hout => cases hout.symm.trans ht
  rcases h.others t _ htc ht with ⟨out, he⟩ | ⟨-, hparent⟩
  · cases he
  · refine ⟨hparent, ?_⟩
    rcases h.sane.owned.kin.part_cases h.sane.owned.sound.parents ht hparent with
      ⟨b, -, hmember⟩ | ⟨d, m, hd, -⟩ | ⟨out, he⟩
    · exact hmember.elim
    · cases h.progress with
      | waits hasked => cases hasked.symm.trans hd
      | takesBack d' hc hopen hready => exact ⟨d', hc, hready⟩
      | isOver out hout => cases hout.symm.trans hd
    · cases he

/-- A turn in which there is nothing to do is over. -/
theorem ClosingDown.run_idle (h : ClosingDown c l) (hready : t ∈ l.publisher.ready)
    (hrun : l.publisher.run t = { l.publisher with ready := l.publisher.ready.erase t })
    (hprogress : CloseProgress c { l.publisher with ready := l.publisher.ready.erase t }) :
    ClosingDown c (l.move (.apart (.run t))) ∧
      (l.publisher.run t).closeWork c + 1 ≤ l.publisher.closeWork c := by
  have hsane := h.sane.move (m := .apart (.run t)) rfl
  have hpos := List.length_pos_of_mem hready
  refine ⟨⟨hsane, fun u s hu hs => ?_, ?_⟩, ?_⟩
  · rw [LocalPublisher.move, Publisher.move, hrun] at hs ⊢
    exact h.others u s hu hs
  · rw [LocalPublisher.move, Publisher.move, hrun]
    exact hprogress
  · have hwork : (l.publisher.run t).closeWork c = (l.publisher.ready.erase t).length +
        ((l.publisher.stage? c).map (Stage.toTakeUp l.publisher.registrar)).getD 0 := by
      rw [hrun]
      rfl
    rw [hwork, closeWork, List.length_erase_of_mem hready]
    omega

/-- **The turn of the close itself.** -/
theorem ClosingDown.run_self (h : ClosingDown c l) (hready : c ∈ l.publisher.ready) :
    ClosingDown c (l.move (.apart (.run c))) ∧
      (l.publisher.run c).closeWork c + 1 ≤ l.publisher.closeWork c := by
  have hsane := h.sane.move (m := .apart (.run c)) rfl
  have hlen := List.length_erase_of_mem hready
  have hpos := List.length_pos_of_mem hready
  cases h.progress with
  | waits hasked hopen hin =>
    obtain ⟨hsame, hcases⟩ := h.sane.owned.run_close_idle hready hasked hopen h.idle
    have hothers : ∀ u s, u ≠ c → (l.publisher.run c).stage? u = some s → (∃ out, s = .ended out) ∨
        (∃ g, s = .unpublishing g) ∧ (l.publisher.run c).parent? u = some c := by
      intro u s hu hs
      obtain ⟨hstage, hparent⟩ := hsame u hu
      rw [hstage] at hs
      rw [hparent]
      exact h.others u s hu hs
    rw [closeWork_eq hasked]
    rcases hcases with ⟨hc, hready'⟩ | ⟨hlive, hc, hready'⟩
    · refine ⟨⟨hsane, hothers, .isOver _ hc⟩, ?_⟩
      rw [closeWork_eq hc, hready']
      simp only [Stage.toTakeUp]
      omega
    · refine ⟨⟨hsane, hothers, .takesBack _ hc ?_ fun _ => ?_⟩, ?_⟩
      · simp [Drain.isComplete, hlive]
      · show c ∈ (l.publisher.run c).ready
        rw [hready']
        exact List.mem_cons_self
      · rw [closeWork_eq hc, hready', List.length_cons]
        simp only [Stage.toTakeUp]
        omega
  | takesBack d hc hd hin =>
    cases hrest : d.rest with
    | nil =>
      obtain ⟨parent, htask⟩ := stage?_eq_some_iff.1 hc
      refine h.run_idle hready ?_ (.takesBack d hc hd fun hne => absurd hrest hne)
      simp only [Publisher.run, List.contains_iff_mem.2 hready, ite_true, htask, drainNext, hrest]
    | cons g rest =>
      obtain ⟨hc', hothers, hready'⟩ := run_drain hready hc hrest
      refine ⟨⟨hsane, fun u s hu hs => ?_, .takesBack _ hc' (by simp [Drain.isComplete]) ?_⟩, ?_⟩
      · rcases hothers u s hu hs with ⟨hold, hparent⟩ | ⟨rfl, hparent⟩
        · exact (h.others u s hu hold).imp_right fun hu => ⟨hu.1, hparent.trans hu.2⟩
        · exact .inr ⟨⟨g, rfl⟩, hparent⟩
      · intro hne
        show c ∈ (l.publisher.run c).ready
        rw [hready', if_neg (by simpa using hne)]
        exact List.mem_cons_self
      · rw [closeWork_eq hc, closeWork_eq hc', hready']
        simp only [Stage.toTakeUp, hrest, List.length_cons]
        split
        · omega
        · rw [List.length_cons]
          omega
  | isOver out hout =>
    exact h.run_idle hready (run_of_ended hout hready) (.isOver out hout)

/-- **A turn** brings a close nearer to its end. -/
theorem ClosingDown.run (h : ClosingDown c l) (hready : t ∈ l.publisher.ready) :
    ClosingDown c (l.move (.apart (.run t))) ∧
      (l.publisher.run t).closeWork c + 1 ≤ l.publisher.closeWork c := by
  by_cases htc : t = c
  · subst htc
    exact h.run_self hready
  · have hmem : c ∈ l.publisher.ready → c ∈ l.publisher.ready.erase t :=
      (List.mem_erase_of_ne (Ne.symm htc)).2
    refine h.run_idle hready (run_of_still hready fun s hs => h.still htc hs) ?_
    cases h.progress with
    | waits hasked hopen hin => exact .waits hasked hopen (hmem hin)
    | takesBack d hc hd hin => exact .takesBack d hc hd fun hne => hmem (hin hne)
    | isOver out hout => exact .isOver out hout

/-- **A call** brings a close no farther from its end. -/
theorem ClosingDown.call (h : ClosingDown c l) (t : Nat) :
    ClosingDown c (l.call t) ∧ (l.call t).publisher.closeWork c ≤ l.publisher.closeWork c := by
  have hsane := h.sane.move (m := .call t) trivial
  have hsound := h.sane.owned.sound
  rcases l.call_answered t with he | ha
  · rw [he]
    exact ⟨h, le_rfl⟩
  · have hreply := ha.reply
    have hothers : ∀ u s, u ≠ c → (l.call t).publisher.stage? u = some s →
        (∃ out, s = .ended out) ∨
          (∃ g, s = .unpublishing g) ∧ (l.call t).publisher.parent? u = some c := by
      intro u s hu hs
      rw [(hsound.sameShape_reply hreply).2]
      rcases hsound.came_reply hreply hs with hsame | ⟨s₀, hs₀, hn⟩
      · exact h.others u s hu hsame
      · rcases h.others u s₀ hu hs₀ with ⟨out, rfl⟩ | ⟨⟨g, rfl⟩, -⟩
        · cases hn
        · cases hn
          exact .inl ⟨_, rfl⟩
    -- the task of a removal ends, and the close is told
    have told : ∀ {p' : Publisher} {g : Registration} (out : Outcome),
        l.publisher.stage? t = some (.unpublishing g) → p'.tasks = l.publisher.tasks →
        p'.ready = l.publisher.ready → CloseProgress c (p'.finish t out) ∧
          (p'.finish t out).closeWork c ≤ l.publisher.closeWork c := by
      intro p' g out ht htasks hready
      obtain ⟨hparent, d, hc, hin⟩ := h.removal ht
      rw [closeWork_eq hc]
      rw [← stage?_congr htasks] at ht hc
      rw [← parent?_congr htasks] at hparent
      have hself : p'.parent? t ≠ some t := by
        rw [parent?_congr htasks]
        exact hsound.parents.ne_self t
      rw [← hready] at hin ⊢
      exact CloseProgress.finish hself ht hparent hc hin out
    suffices hboth : CloseProgress c (l.call t).publisher ∧
        (l.call t).publisher.closeWork c ≤ l.publisher.closeWork c from
      ⟨⟨hsane, hothers, hboth.1⟩, hboth.2⟩
    generalize l.call t = l' at ha
    cases ha with
    | commit k handle d ht | lose k handle d o ht => exact (h.not_publishing ht).elim
    | remove g ht => exact told _ ht (by simp) (by simp)
    | keep g cause ht => exact told _ ht rfl rfl

/-- **A close comes to rest.** -/
theorem comesToRest_close (c : Nat) :
    Session.ComesToRest (ClosingDown c) fun l => l.publisher.closeWork c where
  sane _ h := h.sane
  run _ _ h hready := h.run hready
  call _ t h := h.call t

/-- **A close that has come to rest** has ended. -/
theorem ClosingDown.ended (h : ClosingDown c l) (hall : l.publisher.AllAnswered)
    (hready : l.publisher.ready = []) : ∃ out, l.publisher.outcome? c = some out := by
  have hno : c ∉ l.publisher.ready := hready ▸ List.not_mem_nil
  cases h.progress with
  | waits hasked hopen hin => exact absurd hin hno
  | takesBack d hc hd hin =>
    exfalso
    -- every registration was taken up, and no removal waits for its answer
    have hrest : d.rest = [] := by
      by_contra hne
      exact hno (hin hne)
    have hkept : DrainKept l.publisher c d := h.sane.owned.kin c _ hc
    have hdone : d.isComplete = true := by
      refine Bool.and_eq_true_iff.2 ⟨List.isEmpty_iff.2 hrest, List.all_eq_true.2 fun m hm => ?_⟩
      cases hout : m.outcome with
      | some out => rfl
      | none =>
        have hs := hkept.removal m hm
        rw [Stage.ofRemoval, hout] at hs
        exact (hall m.task _ hs trivial).elim
    rw [hdone] at hd
    cases hd
  | isOver out hout => exact ⟨out, outcome?_eq_some_iff.2 hout⟩

/-- **A close that is asked for** when everything else has ended. -/
theorem closingDown_ask (h : l.Sane) (hopen : l.publisher.registrar.closed = false)
    (hended : ∀ t s, l.publisher.stage? t = some s → ∃ out, s = .ended out) :
    ClosingDown l.publisher.tasks.length (l.move (.apart (.ask (.close .unpublishing)))) where
  sane := h.move (m := .apart (.ask (.close .unpublishing))) rfl
  others t s htc ht := by
    rcases task_of_ask ht with hold | ⟨he, -⟩
    · exact .inl (hended t s hold)
    · exact absurd he htc
  progress := .waits (stage?_ask_new l.publisher _) hopen (mem_ready_wake.2 (.inr (by simp)))

end LocalPublisher

namespace Session

open LocalPublisher Publisher

variable {r : Session MemoryRegistry}

theorem length_registrations_le (r : Registrar) : r.registrations.length ≤ r.slots.size := by
  rw [Registrar.registrations, List.length_mergeSort]
  refine (List.length_filterMap_le ..).trans ?_
  simp [Table.values, Table.size]

/-- **A session has settled after a close**: the close has ended, if there was nothing else to do. -/
theorem settled_close {l : LocalPublisher} (h : l.Sane)
    (hr : r.toLocal = l.move (.apart (.ask (.close .unpublishing))))
    (hopen : l.publisher.registrar.closed = false) (hready : l.publisher.ready = [])
    (hended : ∀ t s, l.publisher.stage? t = some s → ∃ out, s = .ended out) :
    ∃ out, (r.settle .memory).publisher.outcome? l.publisher.tasks.length = some out := by
  have hstart : ClosingDown l.publisher.tasks.length r.toLocal := hr ▸ closingDown_ask h hopen hended
  have hpublisher : r.publisher = l.publisher.ask (.close .unpublishing) :=
    congrArg LocalPublisher.publisher hr
  have hall : r.publisher.AllAnswered := by
    intro t s ht hcall
    rw [hpublisher] at ht
    rcases stage?_of_ask ht with hold | rfl
    · obtain ⟨out, rfl⟩ := hended t s hold
      exact hcall
    · exact hcall
  have hwork : r.publisher.closeWork l.publisher.tasks.length ≤ r.turns := by
    have hasked : r.publisher.stage? l.publisher.tasks.length =
        some (.asked (.close .unpublishing)) := hpublisher ▸ stage?_ask_new l.publisher _
    have hone : r.publisher.ready.length = 1 := by
      rw [hpublisher]
      simp [Publisher.ask, wake, hready]
    have hlive := length_registrations_le r.publisher.registrar
    rw [closeWork_eq hasked, hone]
    simp only [Stage.toTakeUp, turns]
    omega
  obtain ⟨hrest, hall', hready'⟩ := (comesToRest_close _).settle hstart hall hwork
  exact hrest.ended hall' hready'

end Session
end SchemaHerald
