import SchemaHerald.Proofs.BatchProgress
import SchemaHerald.Proofs.PublishCourse

/-!
# Reservations that are out

The registrar counts the reservations that are out, and marks a slot for each. Both are changed in
different places: a publish takes its key and gives it up in another move, a caller may hold a key by
himself, a teardown empties the slots. `Posting` lists what one move may do to slots and count
together, and `Sound.posting_move` says that there is nothing else; in particular the count is never
taken below zero, what is live is never written over, and what is reserved is freed by nobody but who
reserved it.

A teardown waits until the count is zero. `Woken` says that it is woken then: every operation that
takes the count down wakes who waits, and no turn is lost.
-/
namespace SchemaHerald

namespace Registrar

variable {r r' : Registrar} {ks : List Key} {k : Key}

/-- The keys that are taken by a reservation, in order. -/
def reservedKeys (r : Registrar) : List Key :=
  (r.slots.entries.filter fun e => e.2.registration?.isNone).map (·.1)

theorem mem_reservedKeys_iff : k ∈ r.reservedKeys ↔ r.slots.get? k = some .reserved := by
  rw [← Table.mem_entries_iff]
  simp only [reservedKeys, List.mem_map, List.mem_filter]
  constructor
  · rintro ⟨⟨k', slot⟩, ⟨hmem, hnone⟩, rfl⟩
    cases slot with
    | reserved => exact hmem
    | live g => cases hnone
  · exact fun hmem => ⟨(k, .reserved), ⟨hmem, rfl⟩, rfl⟩

theorem nodup_reservedKeys (r : Registrar) : r.reservedKeys.Nodup :=
  List.Sublist.nodup (List.filter_sublist.map _) r.slots.nodup_entries_fst

/-- The reservations that are out take one slot each. -/
theorem Claimed.perm_reservedKeys (h : r.Claimed ks) : ks.Perm r.reservedKeys :=
  (List.perm_ext_iff_of_nodup h.nodup r.nodup_reservedKeys).2 fun k =>
    (h.reserved k).symm.trans mem_reservedKeys_iff.symm

/-- **What one move does to slots and count.** -/
inductive Posting (r r' : Registrar) : Prop
  /-- Nothing. -/
  | kept (hslots : r'.slots = r.slots) (hcount : r'.inFlight = r.inFlight)
  /-- A key that was free is reserved. -/
  | taken (k : Key) (hfree : r.slots.get? k = none) (hslots : r'.slots = r.slots.insert k .reserved)
      (hcount : r'.inFlight = r.inFlight + 1)
  /-- A reservation becomes a registration. -/
  | committed (k : Key) (g : Registration) (hres : r.slots.get? k = some .reserved)
      (hslots : r'.slots = r.slots.insert k (.live g)) (hcount : r.inFlight = r'.inFlight + 1)
  /-- A reservation is dropped, and its key is free. -/
  | dropped (k : Key) (hres : r.slots.get? k = some .reserved)
      (hslots : r'.slots = r.slots.erase k) (hcount : r.inFlight = r'.inFlight + 1)
  /-- A registration is removed, and its key is free. -/
  | removed (k : Key) (g : Registration) (hlive : r.slots.get? k = some (.live g))
      (hslots : r'.slots = r.slots.erase k) (hcount : r'.inFlight = r.inFlight)
  /-- Everything is released, when nothing is reserved. -/
  | released (hnone : ∀ k, r.slots.get? k ≠ some .reserved) (hidle : r.inFlight = 0)
      (hslots : r'.slots = {}) (hcount : r'.inFlight = 0)

/-- Slots and count are the same. -/
structure SameSlots (r r' : Registrar) : Prop where
  slots : r'.slots = r.slots
  count : r'.inFlight = r.inFlight

theorem SameSlots.refl (r : Registrar) : r.SameSlots r := ⟨rfl, rfl⟩

/-- Slots and count are all that matters. -/
theorem Posting.congr {r₁ r₁' : Registrar} (h : r.Posting r') (hbefore : r₁.SameSlots r)
    (hafter : r'.SameSlots r₁') : r₁.Posting r₁' := by
  obtain ⟨hs, hn⟩ := hbefore
  obtain ⟨hs', hn'⟩ := hafter
  cases h with
  | kept hslots hcount =>
    exact .kept (hs'.trans (hslots.trans hs)) (hn'.trans (hcount.trans hn))
  | taken k hfree hslots hcount =>
    exact .taken k (hs ▸ hfree) (hs ▸ hs'.trans hslots) (by omega)
  | committed k g hres hslots hcount =>
    exact .committed k g (hs ▸ hres) (hs ▸ hs'.trans hslots) (by omega)
  | dropped k hres hslots hcount => exact .dropped k (hs ▸ hres) (hs ▸ hs'.trans hslots) (by omega)
  | removed k g hlive hslots hcount =>
    exact .removed k g (hs ▸ hlive) (hs ▸ hs'.trans hslots) (by omega)
  | released hnone hidle hslots hcount =>
    exact .released (hs ▸ hnone) (by omega) (hs'.trans hslots) (by omega)

/-! ## Operations -/

theorem posting_reserve {registry schema : String} (hr : r.reserve registry schema = .ok (k, r')) :
    r.Posting r' := by
  obtain ⟨-, -, hfree, rfl⟩ := reserve_eq_ok_iff.1 hr
  exact .taken k hfree rfl rfl

/-- Where a key is reserved the count is not zero. -/
theorem Claimed.inFlight_pos (h : r.Claimed ks) (hres : r.slots.get? k = some .reserved) :
    0 < r.inFlight := by
  rw [h.count]
  exact List.length_pos_of_mem ((h.reserved k).1 hres)

theorem Claimed.posting_abandon (h : r.Claimed ks) (hres : r.slots.get? k = some .reserved) :
    r.Posting (r.abandon k) := by
  have hpos := h.inFlight_pos hres
  refine .dropped k hres ?_ (by simp only [Registrar.abandon]; omega)
  simp only [Registrar.abandon, unreserve, hres]

theorem Claimed.posting_register (h : r.Claimed ks) (hres : r.slots.get? k = some .reserved)
    (record : Record) (handle : Handle) (listened : Bool) :
    r.Posting (r.register k record handle listened).2 := by
  have hpos := h.inFlight_pos hres
  exact .committed k _ hres rfl (by simp only [Registrar.register]; omega)

theorem posting_unregister (r : Registrar) (g : Registration) : r.Posting (r.unregister g) := by
  by_cases hholds : r.holds g = true
  · obtain ⟨g', hlive, -⟩ := holds_iff.1 hholds
    refine .removed g.key g' (live?_eq_some_iff.1 hlive) ?_ (inFlight_unregister g)
    rw [unregister, if_pos hholds]
  · rw [unregister, if_neg hholds]
    exact .kept rfl rfl

/-- A registration that is removed just before everything is released makes no difference. -/
theorem Claimed.posting_release (h : r.Claimed ks) (h0 : r.inFlight = 0) (hs : r'.slots = {})
    (hn : r'.inFlight = 0) : r.Posting r' := by
  refine .released (fun k hres => ?_) h0 hs hn
  have hpos := h.inFlight_pos hres
  omega

/-- **What callers do** is one posting. -/
theorem Use.posting (hu : r.Use r') (h : r.Claimed ks) : r.Posting r' := by
  cases hu with
  | refused | newHandle => exact .kept rfl rfl
  | reserve registry schema k _ hr => exact posting_reserve hr
  | drop k hres => exact h.posting_abandon hres
  | register k record handle hres => exact h.posting_register hres record handle true
  | unregister g => exact posting_unregister r g
  | handleFor o => exact .kept (slots_handleFor o) (inFlight_handleFor o)

end Registrar

namespace Publisher

open Relation Registrar

variable {p q : Publisher} {t u : Nat} {s : Stage} {o : Outcome}

/-! ## What tasks do to slots and count -/

/-- A task that publishes, or has asked for something, is no part of a teardown. -/
theorem Sound.registrar_finish_plain (h : p.Sound) (hkin : p.Kin) (ht : p.stage? t = some s)
    (hu : ∀ g, s ≠ .unpublishing g) (he : ∀ o, s ≠ .ended o) {p' : Publisher}
    (htasks : p'.tasks = p.tasks) (o : Outcome) :
    (p'.finish t o).registrar = p'.registrar :=
  h.registrar_finish_apart ht htasks (fun _ _ hp => hkin.not_draining ht hu he hp) o

/-- **A step** leaves slots and count alone, or it is a posting after which the task does no more. -/
theorem Sound.posting_step (h : p.Sound) (hkin : p.Kin) (hs : Step t p q) :
    p.registrar.SameSlots q.registrar ∨
      (p.registrar.Posting q.registrar ∧ ∃ s, q.stage? t = some s ∧ s.IsStill) := by
  cases hs with
  | turn | giveUp | queue | grant | permit | beginBatch | gather | unpublish | tryPublish
  | tryUnpublish | drain | take => exact .inl (.refl _)
  | refuse o d failure ht =>
    rw [h.registrar_finish_plain hkin ht (by simp) (by simp) rfl]
    exact .inl (.refl _)
  | refuseBatch o ds outcome ht ho =>
    rw [h.registrar_finish_plain hkin ht (by simp) (by simp) rfl]
    exact .inl (.refl _)
  | closeAgain td ht hc =>
    rw [h.registrar_finish_plain hkin ht (by simp) (by simp) rfl]
    exact .inl (.refl _)
  | close td ht hc => exact .inl ⟨rfl, rfl⟩
  | reserve o o' d k r ht ho hd hr =>
    refine .inr ⟨?_, _, stage?_setStage_self (p := p.withRegistrar (r.handleFor o').2) ht, trivial⟩
    exact (posting_reserve hr).congr (.refl _) ⟨slots_handleFor o', inFlight_handleFor o'⟩
  | release td outcome ht h0 ho =>
    have hended : ((p.withRegistrar p.registrar.release).finish t outcome).stage? t =
        some (.ended outcome) := h.ended_finish (tasks_withRegistrar ..) ht outcome
    refine .inr ⟨?_, _, hended, trivial⟩
    rw [h.registrar_finish_plain hkin ht (by simp) (by simp) (tasks_withRegistrar _ _)]
    exact h.claimed.posting_release h0 rfl h0

/-- **The turn of a task** is one posting. -/
theorem Sound.posting_steps (h : p.Sound) (hkin : p.Kin) (hs : ReflTransGen (Step t) p q) :
    p.registrar.Posting q.registrar := by
  induction hs using ReflTransGen.head_induction_on with
  | refl => exact .kept rfl rfl
  | head hstep hrest ih =>
    rename_i p p'
    have hrest' := ih (h.step hstep) (hkin.step h hstep)
    rcases h.posting_step hkin hstep with hsame | ⟨hposting, s, hs', hstill⟩
    · exact hrest'.congr hsame (.refl _)
    · -- the task does no more
      obtain ⟨ready, rfl⟩ := steps_of_still hrest hs' hstill
      exact hposting

/-- A teardown that is complete by the end of a task releases everything, and nothing was reserved
since it began. -/
theorem Sound.posting_finish (h : p.Sound) (ht : p.stage? t = some s) {p' : Publisher}
    (htasks : p'.tasks = p.tasks) (hcount : p'.registrar.inFlight = p.registrar.inFlight)
    (hposting : p.registrar.Posting p'.registrar) (o : Outcome) :
    p.registrar.Posting (p'.finish t o).registrar := by
  have hself : p'.parent? t ≠ some t := by
    rw [parent?_congr htasks]
    exact h.parents.ne_self _
  rcases registrar_finish hself ((stage?_congr htasks t).trans ht) o with he | ⟨c, d, -, hd, -, he, -⟩
  · rwa [he]
  · rw [stage?_congr htasks] at hd
    have h0 : p.registrar.inFlight = 0 := (h.fits c _ hd).2
    rw [he]
    exact h.claimed.posting_release h0 rfl (hcount.trans h0)

/-- **An answer** is one posting. -/
theorem Sound.posting_reply (h : p.Sound) (hs : Reply t p q) :
    p.registrar.Posting q.registrar := by
  cases hs with
  | commit k handle d record ht =>
    rw [h.registrar_finish_publishing ht (by simp), registrar_withRegistered]
    exact h.claimed.posting_register (h.reserved ht) record handle p.listening
  | lose k handle d outcome ht ho =>
    rw [h.registrar_finish_publishing ht (by simp), registrar_wakeIdle]
    exact h.claimed.posting_abandon (h.reserved ht)
  | remove g ht =>
    refine h.posting_finish ht (by simp) ?_ ?_ _ <;> rw [registrar_withdraw]
    · exact inFlight_unregister g
    · exact posting_unregister _ g
  | keep g cause ht => exact h.posting_finish ht rfl rfl (.kept rfl rfl) _
  | tried s outcome ht hs ho => exact h.posting_finish ht rfl rfl (.kept rfl rfl) _

/-- **Every move** is one posting, whoever makes it. -/
theorem Sound.posting_move (h : p.Sound) (hkin : p.Kin) (m : Move) :
    p.registrar.Posting (p.move m).registrar := by
  have reply : ∀ {t q}, (q = p ∨ Reply t p q) → p.registrar.Posting q.registrar := by
    rintro t q (rfl | hs)
    · exact .kept rfl rfl
    · exact h.posting_reply hs
  cases m with
  | ask request => exact .kept rfl rfl
  | abandon t => exact h.posting_steps hkin (abandon_steps p t)
  | run t => exact h.posting_steps hkin (run_steps p t)
  | answerPublish t a => exact reply (answerPublish_reply p t a)
  | answerUnpublish t a => exact reply (answerUnpublish_reply p t a)
  | reserve | drop | register | unregister | newHandle | handleFor =>
    exact (h.use_move rfl).posting h.claimed

/-! ## Who waits is woken -/

/-- **While nothing is reserved** every teardown that waits has a turn. -/
def Woken (p : Publisher) : Prop :=
  p.registrar.inFlight = 0 → ∀ t td, p.stage? t = some (.waiting td) → t ∈ p.ready

theorem Woken.mono (h : p.Woken) (hcount : q.registrar.inFlight = 0 → p.registrar.inFlight = 0)
    (hwaits : ∀ t td, q.stage? t = some (.waiting td) → p.stage? t = some (.waiting td))
    (hready : ∀ t ∈ p.ready, t ∈ q.ready) : q.Woken :=
  fun h0 t td ht => hready t (h (hcount h0) t td (hwaits t td ht))

/-- Nobody has to be woken while something is reserved. -/
theorem woken_of_busy (h : p.registrar.inFlight ≠ 0) : p.Woken := fun h0 => absurd h0 h

theorem woken_wakeIdle (p : Publisher) : p.wakeIdle.Woken := by
  intro h0 t td ht
  rw [registrar_wakeIdle] at h0
  rw [stage?_congr (tasks_wakeIdle p)] at ht
  unfold wakeIdle
  rw [if_pos h0]
  refine mem_ready_wake.2 (.inr (List.mem_filter.2 ⟨?_, ?_⟩))
  · exact List.mem_range.2 (lt_length_of_stage? ht)
  · rw [ht]
    rfl

/-- A task that is put at a stage at which it does not wait leaves the others as they are. -/
theorem waiting_setStage {td : Teardown} (hs : s.isWaiting = false)
    (hu : (p.setStage t s).stage? u = some (.waiting td)) : u ≠ t ∧ p.stage? u = some (.waiting td) := by
  have hut : u ≠ t := by
    rintro rfl
    have hlt := lt_length_of_stage? hu
    rw [length_tasks_setStage] at hlt
    obtain ⟨s₀, hs₀⟩ := exists_stage? hlt
    cases (stage?_setStage_self hs₀).symm.trans hu
    cases hs
  exact ⟨hut, (stage?_setStage_of_ne hut).symm.trans hu⟩

theorem Woken.setStage (h : p.Woken) (t : Nat) (hs : s.isWaiting = false) :
    (p.setStage t s).Woken :=
  h.mono id (fun _ _ hu => (waiting_setStage hs hu).2) fun _ => id

theorem Woken.wake (h : p.Woken) (us : List Nat) : (p.wake us).Woken :=
  h.mono id (fun _ _ => id) fun _ hu => mem_ready_wake.2 (.inl hu)

theorem Woken.see (h : p.Woken) (entry : Entry) : (p.see entry).Woken := h

theorem Woken.withdraw (h : p.Woken) (g : Registration) : (p.withdraw g).Woken := by
  refine h.mono ?_ (fun u td hu => ?_) fun u hu => ?_
  · rw [registrar_withdraw]
    exact id
  · rwa [stage?_congr (tasks_withdraw p g)] at hu
  · rwa [ready_withdraw]

theorem Woken.withRegistrar (h : p.Woken) {r : Registrar} (hcount : r.inFlight = p.registrar.inFlight) :
    (p.withRegistrar r).Woken :=
  h.mono (fun h0 => hcount.symm.trans h0) (fun _ _ => id) fun _ => id

theorem Woken.releasePermit (h : p.Woken) (c : Nat) (b : Batch) : (p.releasePermit c b).Woken := by
  unfold Publisher.releasePermit
  split
  · dsimp only
    split
    · exact ((h.setStage c rfl).setStage _ rfl).wake _
    · exact h.setStage c rfl
  · exact h.setStage c rfl

theorem Woken.deliver (h : p.Woken) (c t : Nat) (o : Outcome) : (p.deliver c t o).Woken := by
  unfold Publisher.deliver
  split
  · exact (h.releasePermit c _).wake _
  · unfold endDrain
    split
    · split
      · exact ((h.setStage c rfl).withRegistrar rfl).setStage c rfl
      · exact h.setStage c rfl
    · exact h.setStage c rfl
  · exact h

theorem Woken.finish (h : p.Woken) (t : Nat) (o : Outcome) : (p.finish t o).Woken := by
  unfold Publisher.finish
  split
  · exact (h.setStage t rfl).deliver _ t o
  · exact h.setStage t rfl

theorem Woken.beginPublish (h : p.Woken) (t : Nat) (o : RegistryOptions) (d : Definition) :
    (p.beginPublish t o d).Woken := by
  unfold Publisher.beginPublish
  split
  · exact h.finish t _
  · split
    · exact h.finish t _
    · split
      · exact h.finish t _
      · rename_i hr
        refine woken_of_busy ?_
        simp [(reserve_eq_ok_iff.1 hr).2.2.2]

theorem Woken.beginMember (h : p.Woken) (t c : Nat) (o : RegistryOptions) (d : Definition) :
    (p.beginMember t c o d).Woken := by
  unfold Publisher.beginMember
  split
  · split
    · exact (h.setStage c rfl).setStage t rfl
    · exact (h.setStage c rfl).beginPublish t o d
    · exact h.beginPublish t o d
  · exact h.beginPublish t o d

/-- New tasks do not wait. -/
theorem Woken.append (h : p.Woken) (ts : List Task)
    (hts : ∀ task ∈ ts, task.stage.isWaiting = false) (hready : ∀ t ∈ p.ready, t ∈ q.ready)
    (htasks : q.tasks = p.tasks ++ ts) (hregistrar : q.registrar = p.registrar) : q.Woken := by
  refine h.mono (hregistrar ▸ id) (fun u td hu => ?_) hready
  rw [stage?_append htasks] at hu
  split at hu
  · exact hu
  · obtain ⟨task, htask, he⟩ := Option.map_eq_some_iff.1 hu
    have hwaits := hts task (List.mem_of_getElem? htask)
    rw [he] at hwaits
    cases hwaits

theorem Woken.beginBatch (h : p.Woken) (t : Nat) (o : RegistryOptions) (ds : List Definition) :
    (p.beginBatch t o ds).Woken := by
  unfold Publisher.beginBatch
  split
  · exact h.finish t _
  · split
    · exact h.finish t _
    · rename_i o' ho
      dsimp only
      split
      · exact h.finish t _
      · have hgrown : ({ p with tasks := p.tasks ++ memberTasks t o' ds } : Publisher).Woken := by
          refine h.append _ (fun task htask => ?_) (fun _ => id) rfl rfl
          obtain ⟨d, -, rfl⟩ := List.mem_map.1 htask
          rfl
        exact (hgrown.setStage t rfl).wake _

theorem Woken.tearDown (h : p.Woken) (t : Nat) (td : SchemaHerald.Teardown) :
    (p.tearDown t td).Woken := by
  have released : ∀ {r : Registrar} (o : Outcome), r.release = p.registrar.release →
      ((p.withRegistrar r.release).finish t o).Woken := by
    intro r o he
    rw [he]
    exact (h.withRegistrar (r := p.registrar.release) rfl).finish t o
  unfold Publisher.tearDown
  split
  · unfold beginDrain
    cases td with
    | sweeping failing unregisters => exact released _ (release_foldl_unregister _ _)
    | unpublishing =>
      dsimp only
      split
      · exact released _ rfl
      · have hturn : ({ p with ready := t :: p.ready } : Publisher).Woken :=
          h.mono id (fun _ _ => id) fun _ => List.mem_cons_of_mem _
        exact hturn.setStage t rfl
  · rename_i hbusy
    exact woken_of_busy (p := p.setStage t _) hbusy

theorem Woken.drainNext (h : p.Woken) (t : Nat) (d : Drain) : (p.drainNext t d).Woken := by
  unfold Publisher.drainNext
  split
  · exact h
  · rename_i g rest hrest
    refine Woken.see (Woken.setStage ?_ t rfl) _
    refine h.append [{ stage := .unpublishing g, parent := some t }] ?_ (fun u hu => ?_) rfl rfl
    · intro task htask
      rw [List.mem_singleton.1 htask]
      rfl
    · dsimp only
      split
      · exact hu
      · exact List.mem_cons_of_mem _ hu

theorem Woken.begin (h : p.Woken) (t : Nat) (parent : Option Nat) (request : Request) :
    (p.begin t parent request).Woken := by
  cases request with
  | publish o d =>
    cases parent with
    | none => exact h.beginPublish t o d
    | some c => exact h.beginMember t c o d
  | publishAll o ds => exact h.beginBatch t o ds
  | unpublish g | tryPublish handle d | tryUnpublish g => exact (h.setStage t rfl).see _
  | close td =>
    show (p.beginClose t td).Woken
    unfold beginClose
    split
    · exact h.finish t _
    · exact (h.withRegistrar (r := p.registrar.close) rfl).tearDown t td

/-- **In its turn** a teardown goes on, or there is still something reserved. -/
theorem Woken.run (h : p.Woken) (t : Nat) : (p.run t).Woken := by
  unfold Publisher.run
  split
  · have turn : (∀ td, p.stage? t ≠ some (.waiting td)) →
        ({ p with ready := p.ready.erase t } : Publisher).Woken := by
      intro hno h0 u td hu
      have hut : u ≠ t := fun he => hno td (he ▸ hu)
      exact (List.mem_erase_of_ne hut).2 (h h0 u td hu)
    have stays : ∀ {s parent}, p.tasks[t]? = some ⟨s, parent⟩ → s.isWaiting = false →
        ({ p with ready := p.ready.erase t } : Publisher).Woken := by
      intro s parent ht hs
      refine turn fun td hu => ?_
      cases (stage?_eq_some_iff.2 ⟨parent, ht⟩).symm.trans hu
      cases hs
    dsimp only
    split
    · rename_i htask
      exact (stays htask rfl).begin t _ _
    · rename_i htask
      exact (stays htask rfl).beginPublish t _ _
    · rename_i htask
      unfold gather
      split
      · exact (stays htask rfl).setStage t rfl
      · exact stays htask rfl
    · rename_i td _ _
      -- it is waiting itself, and waits no more or comes to wait again
      rw [← tearDown_setStage _ t (.asked (.close td))]
      refine Woken.tearDown (fun h0 u td' hu => ?_) t td
      obtain ⟨hut, hu'⟩ := waiting_setStage (p := { p with ready := p.ready.erase t }) rfl hu
      exact (List.mem_erase_of_ne hut).2 (h h0 u td' hu')
    · rename_i htask
      exact (stays htask rfl).drainNext t _
    · rename_i hwaiting _
      refine turn fun td hu => ?_
      obtain ⟨parent, ht⟩ := stage?_eq_some_iff.1 hu
      exact hwaiting td parent ht
  · exact h

theorem Woken.answerPublish (h : p.Woken) (t : Nat) (a : Answer) : (p.answerPublish t a).Woken := by
  unfold Publisher.answerPublish
  split
  · cases a with
    | record record =>
      dsimp only
      split
      · exact ((woken_wakeIdle _).see _).finish t _
      · exact (woken_wakeIdle _).finish t _
    | refused cause => exact (woken_wakeIdle _).finish t _
    | broken message => exact (woken_wakeIdle _).finish t _
  · cases a <;> exact h.finish t _
  · exact h

theorem Woken.answerUnpublish (h : p.Woken) (t : Nat) (a : Except Cause Unit) :
    (p.answerUnpublish t a).Woken := by
  unfold Publisher.answerUnpublish
  split
  · cases a with
    | ok _ => exact ((h.withRegistrar (inFlight_unregister _)).withdraw _).finish t _
    | error cause => exact h.finish t _
  · cases a <;> exact h.finish t _
  · exact h

theorem woken_fresh (id : String) (listening : Bool) (limit : Option Nat) :
    (fresh id listening limit).Woken := fun _ t td ht => by simp [fresh, stage?] at ht

/-- **After every move** who waits has been woken if nothing is reserved. -/
theorem Woken.move (h : p.Woken) (m : Move) : (p.move m).Woken := by
  cases m with
  | ask request =>
    refine h.append [{ stage := .asked request }] (fun task htask => ?_)
      (fun u hu => mem_ready_wake.2 (.inl hu)) rfl rfl
    rw [List.mem_singleton.1 htask]
    rfl
  | abandon t =>
    simp only [Publisher.move, abandon]
    split
    · exact h.setStage t rfl
    · exact h
  | run t => exact h.run t
  | answerPublish t a => exact h.answerPublish t a
  | answerUnpublish t a => exact h.answerUnpublish t a
  | reserve registry schema =>
    simp only [Publisher.move, Publisher.reserve]
    cases hr : p.registrar.reserve registry schema with
    | error failure => exact h
    | ok made =>
      refine woken_of_busy ?_
      simp [bind, Except.bind, pure, Except.pure, (reserve_eq_ok_iff.1 hr).2.2.2]
  | drop k =>
    simp only [Publisher.move, drop]
    split
    · exact woken_wakeIdle _
    · exact h
  | register k record handle =>
    simp only [Publisher.move, Publisher.register]
    split
    · rename_i q hq
      split at hq
      · cases hq
        exact woken_wakeIdle _
      · cases hq
    · exact h
  | unregister g => exact h.withRegistrar (inFlight_unregister g)
  | newHandle o => exact h.withRegistrar (r := (p.registrar.newHandle o).2) rfl
  | handleFor o => exact h.withRegistrar (inFlight_handleFor o)

/-- **A teardown that is woken** when nothing is reserved waits no more after its turn. -/
theorem Sound.run_waiting (h : p.Sound) {td : SchemaHerald.Teardown}
    (ht : p.stage? t = some (.waiting td)) (hready : t ∈ p.ready) (h0 : p.registrar.inFlight = 0)
    (td' : SchemaHerald.Teardown) : (p.run t).stage? t ≠ some (.waiting td') := by
  obtain ⟨parent, htask⟩ := stage?_eq_some_iff.1 ht
  have hrun : p.run t = { p with ready := p.ready.erase t }.beginDrain t td := by
    simp only [run, List.contains_iff_mem.2 hready, ite_true, htask, tearDown, h0]
  have ended : ∀ {p' : Publisher} (o : Outcome), p'.tasks = p.tasks →
      (p'.finish t o).stage? t ≠ some (.waiting td') := fun o htasks => by
    rw [h.ended_finish htasks ht o]
    simp
  rw [hrun]
  unfold beginDrain
  cases td with
  | sweeping failing unregisters => exact ended _ rfl
  | unpublishing =>
    dsimp only
    split
    · exact ended _ rfl
    · exact fun hu => (waiting_setStage rfl hu).1 rfl

/-! ## Publishers that share a registrar -/

/-- The publisher on the same registrar that is listened to and limited in another way. -/
def sharing (p : Publisher) (listening : Bool) (limit : Option Nat) : Publisher :=
  { p with listening, limit }

/-- **The moves of publishers that share a registrar**, each with what tells its publisher from
others. -/
def sharedMoves (p : Publisher) (ms : List (Bool × Option Nat × Move)) : Publisher :=
  ms.foldl (fun p m => (p.sharing m.1 m.2.1).move m.2.2) p

/-- **The reservations that are out are accounted for.** -/
structure Accounted (p : Publisher) : Prop where
  /-- They are counted. -/
  count : p.registrar.inFlight = p.claims.length
  /-- Each of them has a slot, the one of its key, and no other slot is reserved. -/
  slots : p.claims.Perm p.registrar.reservedKeys
  /-- No key is claimed twice. -/
  once : p.claims.Nodup
  /-- When there are none, a teardown that waits has a turn, in which it goes on. -/
  woken : p.registrar.inFlight = 0 → ∀ t td, p.stage? t = some (.waiting td) →
    t ∈ p.ready ∧ ∀ td', (p.run t).stage? t ≠ some (.waiting td')
  /-- Whatever happens next changes slots and count together. -/
  posting : ∀ listening limit m,
    p.registrar.Posting ((p.sharing listening limit).move m).registrar

theorem Sound.accounted (h : p.Sound) (hkin : p.Kin) (hwoken : p.Woken) : p.Accounted where
  count := h.claimed.count
  slots := h.claimed.perm_reservedKeys
  once := h.claimed.nodup
  woken h0 t td ht :=
    have hready := hwoken h0 t td ht
    ⟨hready, h.run_waiting ht hready h0⟩
  posting listening limit m :=
    Sound.posting_move (p := p.sharing listening limit) (h.congr rfl rfl rfl) (hkin.congr rfl) m

/-- **At all times the reservations that are out are accounted for**, whatever publishers and other
callers do with the registrar that they share. -/
theorem accounted_moves (id : String) (listening : Bool) (limit : Option Nat)
    (ms : List (Bool × Option Nat × Move)) :
    ((fresh id listening limit).sharedMoves ms).Accounted := by
  have hall : ∀ ms, let p := (fresh id listening limit).sharedMoves ms
      p.Sound ∧ p.Kin ∧ p.Woken := by
    intro ms
    induction ms using List.reverseRecOn with
    | nil =>
      exact ⟨sound_fresh id listening limit, kin_fresh id listening limit,
        woken_fresh id listening limit⟩
    | append_singleton ms m ih =>
      obtain ⟨hsound, hkin, hwoken⟩ := ih
      obtain ⟨listening', limit', move⟩ := m
      have hlast : (fresh id listening limit).sharedMoves (ms ++ [(listening', limit', move)]) =
          (((fresh id listening limit).sharedMoves ms).sharing listening' limit').move move :=
        List.foldl_append
      generalize (fresh id listening limit).sharedMoves ms = p at *
      have hsound' : (p.sharing listening' limit').Sound := hsound.congr rfl rfl rfl
      have hkin' : (p.sharing listening' limit').Kin := hkin.congr rfl
      have hwoken' : (p.sharing listening' limit').Woken := hwoken
      rw [hlast]
      exact ⟨hsound'.move move, hkin'.move hsound' move, hwoken'.move move⟩
  obtain ⟨hsound, hkin, hwoken⟩ := hall ms
  exact hsound.accounted hkin hwoken

end Publisher
end SchemaHerald
