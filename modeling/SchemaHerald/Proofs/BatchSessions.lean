import SchemaHerald.Proofs.SessionRuns

/-!
# A batch comes to rest in a session

A session with the registry in memory that is asked for a batch has enough turns for it: a move that
makes a difference brings the batch nearer to its end (`Batching.progress_move`), and when the session
has settled the batch has ended, whatever it came to (`settled_batch`).
-/
namespace SchemaHerald

namespace Publisher

variable {p : Publisher} {t u c n : Nat} {s : Stage} {o : RegistryOptions} {ds : List Definition}
  {b : Batch} {out : Outcome}

/-! ## How far a batch has come -/

/-- **How far the first batch of a publisher has come.** -/
inductive Progress (o : RegistryOptions) (ds : List Definition) (p : Publisher) : Prop
  | waits (hasked : p.stage? 0 = some (.asked (.publishAll o ds))) (hready : 0 ∈ p.ready)
      (hlength : p.tasks.length = 1)
  | goesOn (b : Batch) (registry : String)
      (hcrewed : Crewed p 0 (List.range' 1 ds.length) b none)
      (hgathers : Gathers p 0 registry ((List.range' 1 ds.length).zip (ds.map (·.name))))
  | isOver (out : Outcome) (hout : p.stage? 0 = some (.ended out))
      (halone : ∀ message, out = .broken message → p.tasks.length = 1)

/-- A batch that gathered results until it ended did not break off. -/
theorem Progress.of_gathers {registry : String} {members : List (Nat × String)}
    (h : Gathers p 0 registry members) (hout : p.stage? 0 = some (.ended out)) : Progress o ds p := by
  refine .isOver out hout ?_
  rintro message rfl
  rcases h.outcome hout with ⟨gs, he⟩ | ⟨failure, he⟩ <;> cases he

/-- How much may still happen to the first batch of a publisher. -/
def batchWork (n : Nat) (p : Publisher) : Nat :=
  match p.stage? 0 with
  | some (.asked _) => p.ready.length + 4 * n
  | _ => p.effort (List.range' 1 n)

theorem batchWork_of_asked {request : Request} (h : p.stage? 0 = some (.asked request)) :
    p.batchWork n = p.ready.length + 4 * n := by
  unfold batchWork
  rw [h]

theorem batchWork_of_not_asked (h : ∀ request, p.stage? 0 ≠ some (.asked request)) :
    p.batchWork n = p.effort (List.range' 1 n) := by
  unfold batchWork
  split
  · rename_i request hasked
    exact absurd hasked (h request)
  · rfl

theorem Crewed.batchWork (h : Crewed p 0 (List.range' 1 n) b none) :
    p.batchWork n = p.effort (List.range' 1 n) :=
  batchWork_of_not_asked fun request hasked => by cases h.gathering.symm.trans hasked

theorem batchWork_of_ended (h : p.stage? 0 = some (.ended out)) :
    p.batchWork n = p.effort (List.range' 1 n) :=
  batchWork_of_not_asked fun request hasked => by cases h.symm.trans hasked

theorem effort_le (p : Publisher) (ts : List Nat) :
    p.effort ts ≤ 3 * ts.length + p.ready.length := by
  unfold effort
  induction ts with
  | nil => simp
  | cons t ts ih =>
    have hstage : ((p.stage? t).map Stage.effort).getD 0 ≤ 3 := by
      cases p.stage? t with
      | none => simp
      | some s => cases s <;> simp [Stage.effort]
    rw [List.map_cons, List.sum_cons, List.length_cons]
    omega

/-- **The first turn of a batch**: it begins, or it is refused. -/
theorem Progress.begin (hregular : p.Regular) (hopen : p.registrar.closed = false)
    (hasked : p.stage? 0 = some (.asked (.publishAll o ds))) (hready : 0 ∈ p.ready)
    (hlength : p.tasks.length = 1) :
    Progress o ds (p.run 0) ∧ (p.run 0).batchWork ds.length + 1 ≤ p.ready.length + 4 * ds.length := by
  rcases beginBatch_refused { p with ready := p.ready.erase 0 } 0 o ds with
    ⟨hne, hname, hlimit⟩ | ⟨out, -, hrefuse⟩
  · have hawaited : Awaited (p.circumstances o fun _ _ => .record ⟨"", "", none, {}⟩) o ds 0 p :=
      ⟨hregular, hasked, hlength, hready, hopen, rfl, rfl, hlimit⟩
    have ho : o.canonical? = .ok { o with name := Text.trim o.name } :=
      RegistryOptions.canonical?_eq_ok_iff.2 ⟨hname, rfl⟩
    obtain ⟨hbegun, hle⟩ := hawaited.begin hne ho (RegistryOptions.canonical?_again ho)
    rcases hbegun.crewed with ⟨b, hcrewed⟩ | ⟨out, hout⟩
    · exact ⟨.goesOn b _ hcrewed hbegun.gathers, hcrewed.batchWork ▸ hle⟩
    · exact ⟨.of_gathers hbegun.gathers hout, (batchWork_of_ended hout) ▸ hle⟩
  · obtain ⟨parent, htask⟩ := stage?_eq_some_iff.1 hasked
    have horphan : p.parent? 0 = none :=
      hregular.kin.orphan hregular.sound.parents hasked id (by simp) (by simp)
    have hrun : p.run 0 =
        Publisher.setStage { p with ready := p.ready.erase 0 } 0 (.ended out) := by
      rw [← finish_of_orphan (p := { p with ready := p.ready.erase 0 }) horphan, ← hrefuse]
      simp only [Publisher.run, List.contains_iff_mem.2 hready, ite_true, htask, Publisher.begin]
    have hended : (p.run 0).stage? 0 = some (.ended out) := by
      rw [hrun]
      exact stage?_setStage_self (p := { p with ready := p.ready.erase 0 }) hasked
    refine ⟨.isOver out hended fun _ _ => ?_, ?_⟩
    · rw [hrun]
      simpa using hlength
    have hturn : (p.run 0).effort (List.range' 1 ds.length) + 1 ≤
        p.effort (List.range' 1 ds.length) := by
      refine effort_turn hready (by rw [hrun]; rfl) fun t ht => ?_
      have hpos := (List.mem_range'_1.1 ht).1
      rw [hrun]
      exact stage?_setStage_of_ne (p := { p with ready := p.ready.erase 0 }) (by omega)
    have hle := p.effort_le (List.range' 1 ds.length)
    rw [List.length_range'] at hle
    rw [batchWork_of_ended hended]
    omega

end Publisher

namespace LocalPublisher

open Publisher

variable {l : LocalPublisher} {t n : Nat} {o : RegistryOptions} {ds : List Definition}

/-- **A move that counts** brings a batch nearer to its end. -/
theorem Batching.progress_move (h : Batching ds.length l) (hprogress : Progress o ds l.publisher)
    (hregular : l.publisher.Regular) (hopen : l.publisher.registrar.closed = false) {m : Move}
    (hcounts : m.Counts l.publisher) :
    Progress o ds (l.publisher.move m) ∧
      (l.publisher.move m).batchWork ds.length + 1 ≤ l.publisher.batchWork ds.length := by
  have hkeeps : ∀ registry members, Gathers l.publisher 0 registry members →
      Gathers (l.publisher.move m) 0 registry members :=
    fun registry members hg => hg.move hregular.sound hregular.kin m
  -- only the tasks of the batch have turns and wait for answers
  have htask : ∀ {t}, t < l.publisher.tasks.length → t = 0 ∨ t ∈ List.range' 1 ds.length := by
    intro t ht
    have hfew := h.one.few
    rw [List.mem_range'_1]
    omega
  cases hprogress with
  | waits hasked hready hlength =>
    rw [batchWork_of_asked hasked]
    cases m with
    | run t =>
      have hlt := h.manned t hcounts
      obtain rfl : t = 0 := by omega
      exact Progress.begin hregular hopen hasked hready hlength
    | answerPublish t a =>
      obtain ⟨k, handle, d, ht⟩ := hcounts
      have hlt := lt_length_of_stage? ht
      obtain rfl : t = 0 := by omega
      cases hasked.symm.trans ht
    | _ => exact hcounts.elim
  | goesOn b registry hcrewed hgathers =>
    rw [hcrewed.batchWork]
    cases m with
    | run t =>
      rcases htask (h.manned t hcounts) with rfl | hmem
      · obtain ⟨⟨b', hcrewed'⟩ | ⟨out, hout⟩, hle⟩ := hcrewed.gather hcounts
        · exact ⟨.goesOn b' registry hcrewed' (hkeeps _ _ hgathers), hcrewed'.batchWork ▸ hle⟩
        · exact ⟨.of_gathers (hkeeps _ _ hgathers) hout, (batchWork_of_ended hout) ▸ hle⟩
      · have hkept : BatchKept l.publisher 0 b := hregular.kin 0 _ hcrewed.gathering
        obtain ⟨s, hs, hmember⟩ := hkept.member t (hcrewed.children t hmem)
        obtain ⟨⟨b', hcrewed'⟩, hle⟩ := hcrewed.run hmem hs hmember hcounts
        exact ⟨.goesOn b' registry hcrewed' (hkeeps _ _ hgathers), hcrewed'.batchWork ▸ hle⟩
    | answerPublish t a =>
      obtain ⟨k, handle, d, ht⟩ := hcounts
      rcases htask (lt_length_of_stage? ht) with rfl | hmem
      · cases hcrewed.gathering.symm.trans ht
      · obtain ⟨⟨b', hcrewed'⟩, hle⟩ := hcrewed.answer hregular.sound hopen hmem ht a
        exact ⟨.goesOn b' registry hcrewed' (hkeeps _ _ hgathers), hcrewed'.batchWork ▸ hle⟩
    | _ => exact hcounts.elim
  | isOver out hout halone =>
    have hended : ∀ {u s}, l.publisher.stage? u = some s → ∃ o, s = .ended o :=
      h.one.ended h.sane.owned (outcome?_eq_some_iff.2 hout)
    rw [batchWork_of_ended hout]
    cases m with
    | run t =>
      obtain ⟨s, hs⟩ := exists_stage? (h.manned t hcounts)
      obtain ⟨o, rfl⟩ := hended hs
      have hrun := run_of_ended hs hcounts
      have hsame : (l.publisher.run t).stage? 0 = some (.ended out) := by
        rw [hrun]
        exact hout
      refine ⟨.isOver out hsame fun message he => ?_, ?_⟩
      · rw [Publisher.move, hrun]
        exact halone message he
      rw [Publisher.move, batchWork_of_ended hsame]
      exact effort_turn hcounts (by rw [hrun]) fun u _ => by rw [hrun]; rfl
    | answerPublish t a =>
      obtain ⟨k, handle, d, ht⟩ := hcounts
      obtain ⟨o, he⟩ := hended ht
      cases he
    | _ => exact hcounts.elim

/-- **A batch under way in a session.** -/
structure UnderWay (o : RegistryOptions) (ds : List Definition) (l : LocalPublisher) : Prop where
  batching : Batching ds.length l
  regular : l.publisher.Regular
  isOpen : l.publisher.registrar.closed = false
  progress : Progress o ds l.publisher

/-- A turn leaves a batch under way, and makes no difference or brings it nearer to its end. -/
theorem UnderWay.turn (h : UnderWay o ds l) {m : LocalMove} (hm : m.IsTurn) :
    UnderWay o ds (l.move m) ∧ ((l.move m).publisher = l.publisher ∨
      (l.move m).publisher.batchWork ds.length + 1 ≤ l.publisher.batchWork ds.length) := by
  obtain ⟨hbatching, hcases⟩ := h.batching.turn hm
  have hopen : (l.moves [m]).publisher.registrar.closed = false :=
    open_of_turns h.batching.sane (by simpa using hm) h.isOpen
      fun u td hu => h.batching.one.stages u _ hu
  rcases hcases with hsame | ⟨m', hcounts, -, hmove⟩
  · exact ⟨⟨hbatching, hsame ▸ h.regular, hopen, hsame ▸ h.progress⟩, .inl hsame⟩
  · obtain ⟨hprogress, hle⟩ := h.batching.progress_move h.progress h.regular h.isOpen hcounts
    exact ⟨⟨hbatching, hmove ▸ h.regular.move m', hopen, hmove ▸ hprogress⟩, .inr (hmove ▸ hle)⟩

theorem UnderWay.turns (h : UnderWay o ds l) {ms : List LocalMove} (hms : ∀ m ∈ ms, m.IsTurn) :
    UnderWay o ds (l.moves ms) := by
  induction ms generalizing l with
  | nil => exact h
  | cons m ms ih =>
    exact ih (h.turn (hms m List.mem_cons_self)).1 fun m' hm' => hms m' (List.mem_cons_of_mem m hm')

/-- **A batch that broke off** has left nothing in the registry. -/
theorem UnderWay.stored_of_broken (h : UnderWay o ds l) {message : String}
    (hout : l.publisher.outcome? 0 = some (.broken message)) : l.memory.stored = [] := by
  rw [outcome?_eq_some_iff] at hout
  cases h.progress with
  | waits hasked => cases hasked.symm.trans hout
  | goesOn b registry hcrewed => cases hcrewed.gathering.symm.trans hout
  | isOver out hended halone =>
    cases hended.symm.trans hout
    have hone := halone message rfl
    -- what is stored was registered by a task, and there is none but the batch
    refine List.eq_nil_iff_forall_not_mem.2 fun s hs => ?_
    obtain ⟨g, ⟨t, ht⟩, -⟩ := h.batching.sane.stored s hs
    have hlt := lt_length_of_stage? ht
    obtain rfl : t = 0 := by omega
    cases ht.symm.trans hout

/-- **A batch comes to rest.** -/
theorem comesToRest_batch (o : RegistryOptions) (ds : List Definition) :
    Session.ComesToRest (UnderWay o ds) fun l => l.publisher.batchWork ds.length where
  sane l h := h.batching.sane
  run l t h hready := by
    refine ⟨(h.turn (m := .apart (.run t)) trivial).1, ?_⟩
    exact (h.batching.progress_move h.progress h.regular h.isOpen (m := .run t) hready).2
  call l t h := by
    obtain ⟨hnext, hcases⟩ := h.turn (m := .call t) trivial
    refine ⟨hnext, ?_⟩
    rcases hcases with hsame | hle
    · exact (congrArg (Publisher.batchWork ds.length) hsame).le
    · exact Nat.le_of_succ_le hle

/-- **A batch that has come to rest** has ended. -/
theorem UnderWay.ended (h : UnderWay o ds l) (hall : l.publisher.AllAnswered)
    (hready : l.publisher.ready = []) : ∃ out, l.publisher.outcome? 0 = some out := by
  cases h.progress with
  | waits hasked hin hlength =>
    rw [hready] at hin
    cases hin
  | goesOn b registry hcrewed hgathers =>
    exfalso
    have hmembers : b.members.map (·.1) = List.range' 1 ds.length := by
      cases hgathers with
      | underWay b' hc hr hm =>
        cases hcrewed.gathering.symm.trans hc
        rw [hm, List.map_fst_zip (by simp)]
      | hasEnded b' hc => cases hcrewed.gathering.symm.trans hc
    rw [← hmembers] at hcrewed
    rcases hcrewed.busy (h.regular.kin 0 _ hcrewed.gathering) with hin | ⟨t, -, hin | ⟨k, handle, d, ht⟩⟩
    · rw [hready] at hin
      cases hin
    · rw [hready] at hin
      cases hin
    · exact hall t _ ht trivial
  | isOver out hout => exact ⟨out, outcome?_eq_some_iff.2 hout⟩

theorem underWay_ask (base : Option String) (id : String) (limit : Option Nat) (listening : Bool)
    (o : RegistryOptions) (ds : List Definition) :
    UnderWay o ds ((fresh base id listening limit).move (.apart (.ask (.publishAll o ds)))) where
  batching := batching_ask base id listening limit o ds
  regular := regular_moves id listening limit [.ask (.publishAll o ds)]
  isOpen := rfl
  progress := .waits rfl (mem_ready_wake.2 (.inr (by simp [LocalPublisher.fresh, Publisher.fresh]))) rfl

end LocalPublisher

namespace Session

open LocalPublisher Publisher

variable {r : Session MemoryRegistry} {o : RegistryOptions} {ds : List Definition}

/-- **A session has settled after a batch**: the batch has ended, and nothing is left to do. -/
theorem settled_batch {base : Option String} {id : String} {listening : Bool} {limit : Option Nat}
    (hr : r.toLocal = (LocalPublisher.fresh base id listening limit).move
      (.apart (.ask (.publishAll o ds)))) :
    (∃ out, (r.settle .memory).publisher.outcome? 0 = some out) ∧
      (r.settle .memory).publisher.ready = [] ∧ Batching ds.length (r.settle .memory).toLocal := by
  have hstart : UnderWay o ds r.toLocal := hr ▸ underWay_ask base id limit listening o ds
  have hpublisher : r.publisher = (Publisher.fresh id listening limit).ask (.publishAll o ds) :=
    congrArg LocalPublisher.publisher hr
  have hall : r.publisher.AllAnswered := by
    intro t s ht hcall
    rw [hpublisher] at ht
    rcases stage?_of_ask ht with hold | rfl
    · simp [Publisher.fresh, stage?] at hold
    · exact hcall
  have hwork : r.publisher.batchWork ds.length ≤ r.turns := by
    have hpending : pendingSchemas r.publisher = ds.length := by
      rw [hpublisher]
      exact Nat.zero_add _
    have hone : r.publisher.ready.length = 1 := by
      rw [hpublisher]
      rfl
    have hasked : r.publisher.stage? 0 = some (.asked (.publishAll o ds)) := by
      rw [hpublisher]
      rfl
    rw [batchWork_of_asked hasked, turns, hpending]
    omega
  obtain ⟨hrest, hall', hready⟩ := (comesToRest_batch o ds).settle hstart hall hwork
  exact ⟨hrest.ended hall' hready, hready, hrest.batching⟩

end Session
end SchemaHerald
