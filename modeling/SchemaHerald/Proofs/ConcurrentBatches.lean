import SchemaHerald.Proofs.BatchAccounting
import SchemaHerald.Proofs.BatchProgress
import SchemaHerald.Proofs.Verdicts

/-!
# A batch comes to what its schemas come to one by one

A registry that answers to a publish according to the handle and the definition alone, but for ids, is
a *client* here (`Follows`). Schemas with different names are published to it in two ways: by a batch
whose tasks run and are answered in any order, under any limit, and one after the other (`oneByOne`,
`TwoWays`). Both are on the way to the same verdicts (`Tracks`), so the batch tells of what the single
publishes came to, and what is live, what is reserved and which handles there are is the same in the
end (`batch_oneByOne`). Nor does a batch stop half-way: as long as it has not ended something can happen,
and only so much can.
-/
namespace SchemaHerald

/-- One of the tasks from `first` to `last` has its turn, or the registry answers to it. -/
inductive Move.Within (first last : Nat) : Move → Prop
  | run (t : Nat) (hfirst : first ≤ t) (hlast : t ≤ last) : Within first last (.run t)
  | answer (t : Nat) (a : Answer) (hfirst : first ≤ t) (hlast : t ≤ last) :
      Within first last (.answerPublish t a)

/-- **A move makes a difference**: the task has a turn, or it waits for the answer. -/
def Move.Counts (p : Publisher) : Move → Prop
  | .run t => t ∈ p.ready
  | .answerPublish t _ => ∃ k handle d, p.stage? t = some (.publishing k handle d)
  | _ => False

/-- **The answer to a call is the client's**, but for an id. -/
def Move.Follows (client : Handle → Definition → Answer) (p : Publisher) : Move → Prop
  | .answerPublish t a => ∀ k handle d, p.stage? t = some (.publishing k handle d) →
      a.bare = (client handle d).bare
  | _ => True

/-- **The end of a publish, as its batch tells of it**: a registration, or a part of the failure. Who
broke off is lost. -/
inductive Outcome.ToldAs (registry schema : String) : Outcome → Registration ⊕ Part Failure → Prop
  | registered (g g' : Registration) (h : g'.bare = g.bare) :
      ToldAs registry schema (.registered g) (.inl g')
  | failed (failure : Failure) :
      ToldAs registry schema (.failed failure) (.inr ⟨schema, registry, failure⟩)
  | lost (message : String) (task : Nat) :
      ToldAs registry schema (.broken message) (.inr ⟨schema, registry, .taskLost registry schema
        s!"task {task} panicked with message {Text.Quoted.encode message}"⟩)

/-- What a batch gives its caller when this became of its schemas. -/
def Outcome.ofEntries (registry : String) (es : List (Registration ⊕ Part Failure)) : Outcome :=
  let parts := es.filterMap Sum.getRight?
  if es.isEmpty then .failed .nothingToPublish
  else if parts.isEmpty then .registeredAll (es.filterMap Sum.getLeft?)
  else .failed (.partialPublish registry es.length parts)

namespace Publisher

variable {p : Publisher} {t c i n first : Nat} {s : Stage} {w : Circumstances}
  {ds : List Definition} {d : Definition} {o : RegistryOptions}

/-- **The registry answers as a client does**, but for ids. -/
def Follows (client : Handle → Definition → Answer) (p : Publisher) : List Move → Prop
  | [] => True
  | m :: ms => m.Follows client p ∧ Follows client (p.move m) ms

/-- Every move of a list makes a difference. -/
def Busy (p : Publisher) : List Move → Prop
  | [] => True
  | m :: ms => m.Counts p ∧ Busy (p.move m) ms

/-- **Schemas are published one by one**: each is asked for, runs and is answered before the next one
is asked for. The first task is `t`. -/
def oneByOne (o : RegistryOptions) (answers : Nat → Answer) (t : Nat) : List Definition → List Move
  | [] => []
  | d :: ds => .ask (.publish o d) :: .run t :: .answerPublish t (answers t) ::
      oneByOne o answers (t + 1) ds

/-! ## One by one -/

/-- The beginning of a publish refuses it, or calls the registry, and makes no tasks. -/
theorem beginPublish_spec (hself : p.parent? t ≠ some t) (ht : p.stage? t = some s)
    (o : RegistryOptions) (d : Definition) :
    SameShape p (p.beginPublish t o d) ∧
      ((∃ outcome, (p.beginPublish t o d).stage? t = some (.ended outcome)) ∨
        ∃ k handle d', (p.beginPublish t o d).stage? t = some (.publishing k handle d')) := by
  have finished : ∀ outcome, SameShape p (p.finish t outcome) ∧
      (p.finish t outcome).stage? t = some (.ended outcome) := fun outcome =>
    ⟨sameShape_finish hself ht outcome, (finished_finish hself ht outcome).ended hself ht⟩
  unfold beginPublish
  split
  · exact ⟨(finished _).1, .inl ⟨_, (finished _).2⟩⟩
  · split
    · exact ⟨(finished _).1, .inl ⟨_, (finished _).2⟩⟩
    · split
      · exact ⟨(finished _).1, .inl ⟨_, (finished _).2⟩⟩
      · exact ⟨sameShape_setStage (p.withRegistrar _) t _,
          .inr ⟨_, _, _, stage?_setStage_self (p := p.withRegistrar _) ht⟩⟩

/-- A publish that is a part of nothing begins in its first turn. -/
theorem run_publish (hready : t ∈ p.ready) (ht : p.stage? t = some (.asked (.publish o d)))
    (hparent : p.parent? t = none) :
    p.run t = Publisher.beginPublish { p with ready := p.ready.erase t } t o d := by
  obtain ⟨parent, htask⟩ := stage?_eq_some_iff.1 ht
  have hnone : parent = none := by rwa [parent?, htask] at hparent
  simp only [Publisher.run, List.contains_iff_mem.2 hready, ite_true, htask, begin, hnone]

/-- **A publish that has its first turn and is answered** has ended. -/
theorem Sound.run_answer (hp : p.Sound) (hready : t ∈ p.ready)
    (ht : p.stage? t = some (.asked (.publish o d))) (hparent : p.parent? t = none) (a : Answer) :
    SameShape p ((p.run t).answerPublish t a) ∧
      ∃ outcome, ((p.run t).answerPublish t a).stage? t = some (.ended outcome) := by
  have hp' : (p.run t).Sound := hp.move (.run t)
  obtain ⟨hshape, hstage⟩ : SameShape p (p.run t) ∧
      ((∃ outcome, (p.run t).stage? t = some (.ended outcome)) ∨
        ∃ k handle d', (p.run t).stage? t = some (.publishing k handle d')) := by
    rw [run_publish hready ht hparent]
    exact beginPublish_spec (p := { p with ready := p.ready.erase t }) (hp.parents.ne_self t) ht o d
  have hshape' : SameShape p ((p.run t).answerPublish t a) := by
    rcases answerPublish_reply (p.run t) t a with he | hs
    · rw [he]
      exact hshape
    · exact hshape.trans (hp'.sameShape_reply hs)
  refine ⟨hshape', ?_⟩
  unfold answerPublish
  rcases hstage with ⟨outcome, hs⟩ | ⟨k, handle, d', hs⟩
  · rw [hs]
    exact ⟨outcome, hs⟩
  · rw [hs]
    cases a with
    | record record => exact ⟨_, hp'.ended_finish (tasks_withRegistered _ k record handle) hs _⟩
    | refused cause => exact ⟨_, hp'.ended_finish (by simp) hs _⟩
    | broken message => exact ⟨_, hp'.ended_finish (by simp) hs _⟩

/-- **The publishes before a position have ended**, and there are no more tasks. -/
structure PublishedUpTo (w : Circumstances) (ds : List Definition) (first i : Nat) (p : Publisher) :
    Prop where
  sound : p.Sound
  tracks : Tracks w ds first p
  length : p.tasks.length = first + i
  ended : ∀ j, j < i → ∃ outcome, p.outcome? (first + j) = some outcome

/-- **One more schema is published.** -/
theorem PublishedUpTo.next (h : PublishedUpTo w ds first i p) (hnames : (ds.map (·.name)).Nodup)
    (hd : ds[i]? = some d) (ho : o.canonical? = .ok w.options) {a : Answer}
    (ha : ∀ k handle d', ((p.ask (.publish o d)).run (first + i)).stage? (first + i) =
      some (.publishing k handle d') → a.bare = (w.answers handle d').bare) :
    PublishedUpTo w ds first (i + 1)
      (((p.ask (.publish o d)).run (first + i)).answerPublish (first + i) a) := by
  have hlength := h.length
  have hasked := h.tracks.ask hd hlength ho
  have hsound := h.sound.ask (.publish o d)
  have hstage : (p.ask (.publish o d)).stage? (first + i) = some (.asked (.publish o d)) := by
    rw [stage?_append (tasks_ask p _), if_neg (by omega), hlength, Nat.sub_self]
    rfl
  have hparent : (p.ask (.publish o d)).parent? (first + i) = none := by
    rw [parent?_ask]
    simp [parent?, hlength]
  have hready : first + i ∈ (p.ask (.publish o d)).ready := by
    rw [← hlength]
    exact mem_ready_wake.2 (.inr (by simp))
  have hran := hsound.move (.run (first + i))
  obtain ⟨hshape, outcome, hended⟩ := hsound.run_answer hready hstage hparent a
  refine ⟨hran.move (.answerPublish (first + i) a),
    (hasked.run hsound hnames hd).answer hran hnames hd ha, ?_, fun j hj => ?_⟩
  · rw [hshape.1, tasks_ask, List.length_append, hlength]
    rfl
  · rcases Nat.lt_succ_iff_lt_or_eq.1 hj with hlt | rfl
    · -- what ended before stays as it is
      obtain ⟨outcome, houtcome⟩ := h.ended j hlt
      exact ⟨outcome, h.sound.outcome?_moves [.ask (.publish o d), .run (first + i),
        .answerPublish (first + i) a] houtcome⟩
    · exact ⟨outcome, outcome?_eq_some_iff.2 hended⟩

/-- **Schemas that are published one by one** all end, on the way to their verdicts. -/
theorem PublishedUpTo.all (h : PublishedUpTo w ds first i p) (hnames : (ds.map (·.name)).Nodup)
    (ho : o.canonical? = .ok w.options) {answers : Nat → Answer} {rest : List Definition}
    (hrest : ds.drop i = rest) (hfollows : Follows w.answers p (oneByOne o answers (first + i) rest)) :
    PublishedUpTo w ds first (i + rest.length) (p.moves (oneByOne o answers (first + i) rest)) := by
  induction rest generalizing i p with
  | nil => exact h
  | cons d rest ih =>
    have hd : ds[i]? = some d := by
      rw [← List.head?_drop, hrest]
      rfl
    have hrest' : ds.drop (i + 1) = rest := by
      rw [← List.tail_drop, hrest]
      rfl
    obtain ⟨-, -, hanswer, hfollows⟩ := hfollows
    have hnext := h.next hnames hd ho hanswer
    rw [List.length_cons, ← Nat.add_assoc, Nat.add_right_comm]
    exact ih hnext hrest' hfollows

/-! ## The batch -/

/-- A task that has ended only loses its turn. -/
theorem run_of_ended {outcome : Outcome} (ht : p.stage? t = some (.ended outcome))
    (hready : t ∈ p.ready) : p.run t = { p with ready := p.ready.erase t } := by
  obtain ⟨parent, htask⟩ := stage?_eq_some_iff.1 ht
  simp only [Publisher.run, List.contains_iff_mem.2 hready, ite_true, htask]

/-- **How a batch begins** when there may be as many permits as there are to be. -/
theorem run_publishAll_eq {options : RegistryOptions} (hready : c ∈ p.ready)
    (hc : p.stage? c = some (.asked (.publishAll o ds))) (hne : ds ≠ [])
    (ho : o.canonical? = .ok options) (hlimit : ∀ n, p.limit = some n → n ≤ Batch.mostPermits) :
    p.run c = (Publisher.withBatch { p with ready := p.ready.erase c } c options ds).wake
      (List.range' p.tasks.length ds.length) := by
  have hfew : ((p.limit.map (max 1)).any (Batch.mostPermits < ·)) = false := by
    cases hl : p.limit with
    | none => rfl
    | some n =>
      have hn := hlimit n hl
      have hone : 1 ≤ Batch.mostPermits := by decide
      simp only [Option.map_some, Option.any_some, decide_eq_false_iff_not]
      omega
  rw [run_of_publishAll hready hc]
  unfold beginBatch
  rw [if_neg (fun he => hne (List.isEmpty_iff.1 he)), ho]
  dsimp only
  rw [hfew]
  rfl

/-- **A batch that begins** is kept going from then on. -/
theorem Kin.crewed_begin (hkin : p.Kin) (hready : c ∈ p.ready)
    (hc : p.stage? c = some (.asked (.publishAll o ds))) (hne : ds ≠ [])
    (ho : o.canonical? = .ok w.options)
    (hlimit : ∀ n, p.limit = some n → n ≤ Batch.mostPermits)
    (hmembers : ∀ i d, ds[i]? = some d →
      (p.run c).stage? (p.tasks.length + i) = some (.asked (.publish w.options d))) :
    Crewed (p.run c) c (List.range' p.tasks.length ds.length) (p.newBatch w.options ds) none ∧
      (p.run c).effort (List.range' p.tasks.length ds.length) + 1 ≤
        p.ready.length + 4 * ds.length := by
  have hrun := run_publishAll_eq hready hc hne ho hlimit
  have htasks : (p.run c).tasks = (p.withBatch c w.options ds).tasks := by
    rw [hrun]
    rfl
  have hkept := hkin.batchKept hc w.options
  have hnumbers : (p.newBatch w.options ds).members.map (·.1) =
      List.range' p.tasks.length ds.length := List.map_fst_zip (by simp)
  have hlt := lt_length_of_stage? hc
  have hpos : 0 < ds.length := List.length_pos_iff.2 hne
  have hasked : ∀ t ∈ List.range' p.tasks.length ds.length, ∃ d,
      (p.run c).stage? t = some (.asked (.publish w.options d)) := fun t ht => by
    obtain ⟨hle, hlt⟩ := List.mem_range'_1.1 ht
    obtain ⟨i, rfl⟩ := Nat.exists_eq_add_of_le hle
    have hi : i < ds.length := by omega
    exact ⟨ds[i], hmembers i _ (List.getElem?_eq_getElem hi)⟩
  refine ⟨⟨List.nodup_range', fun hmem => ?_, fun t ht => ?_, ?_, rfl, fun t ht s hs hcan => ?_,
    fun t ht o d hs => ?_, fun t ht => ?_, List.nodup_nil, fun hq => absurd rfl hq, fun h0 => ?_,
    fun hb => ?_⟩, ?_⟩
  · have := (List.mem_range'_1.1 hmem).1
    omega
  · rw [parent?_congr htasks]
    exact (hkept.children t).2 (hnumbers ▸ ht)
  · rw [stage?_congr htasks]
    exact stage?_setStage_self (stage?_append_of_some (p := p) rfl hc)
  · rw [hrun]
    exact .inl (mem_ready_wake.2 (.inr ht))
  · obtain ⟨d', hs'⟩ := hasked t ht
    rw [hs'] at hs
    cases hs
  · cases ht
  · -- a limit of nothing counts as one
    cases hl : p.limit with
    | none => simp [newBatch, hl] at h0
    | some n =>
      simp only [newBatch, hl, Option.map_some, Option.some.injEq] at h0
      omega
  · have hlen : 0 = (p.newBatch w.options ds).members.length := beq_iff_eq.1 hb
    rw [← List.length_map (f := (·.1)), hnumbers, List.length_range'] at hlen
    omega
  · have hsum : ((List.range' p.tasks.length ds.length).map fun t =>
        (((p.run c).stage? t).map Stage.effort).getD 0) =
          (List.range' p.tasks.length ds.length).map fun _ => 3 :=
      List.map_congr_left fun t ht => by
        obtain ⟨d, hs⟩ := hasked t ht
        rw [hs]
        rfl
    have hlen : (p.run c).ready.length ≤ (p.ready.erase c).length + ds.length := by
      rw [hrun]
      refine (length_ready_wake_le _ _).trans ?_
      rw [List.length_range']
      rfl
    have herase := List.length_erase_of_mem hready
    have hready' := List.length_pos_of_mem hready
    unfold effort
    rw [hsum, List.map_const', List.sum_replicate_nat, List.length_range']
    omega

/-- What holds of a publisher at all times. -/
structure Regular (p : Publisher) : Prop where
  sound : p.Sound
  kin : p.Kin
  numbered : p.Numbered

theorem Regular.move (h : p.Regular) (m : Move) : (p.move m).Regular :=
  ⟨h.sound.move m, h.kin.move h.sound m, h.numbered.move h.sound m⟩

theorem regular_moves (id : String) (listening : Bool) (limit : Option Nat) (ms : List Move) :
    ((fresh id listening limit).moves ms).Regular :=
  ⟨(sound_fresh id listening limit).moves ms,
    (kin_fresh id listening limit).moves (sound_fresh id listening limit) ms,
    (numbered_fresh id listening limit).moves (sound_fresh id listening limit) ms⟩

/-- **A batch is under way or has ended**, and its members are on the way to their verdicts. Its task is
`c`, and the tasks of its members come right after it. -/
structure Underway (w : Circumstances) (ds : List Definition) (c : Nat) (p : Publisher) : Prop where
  regular : p.Regular
  tracks : Tracks w ds (c + 1) p
  gathers : Gathers p c w.options.name ((List.range' (c + 1) ds.length).zip (ds.map (·.name)))
  publishes : ∀ i d, ds[i]? = some d →
    ∃ s, p.stage? (c + 1 + i) = some s ∧ s.Publishes w.options d
  crewed : (∃ b, Crewed p c (List.range' (c + 1) ds.length) b none) ∨
    ∃ outcome, p.stage? c = some (.ended outcome)

/-- A task of the batch is the batch's own or a member's. -/
theorem eq_or_mem_range' (hfirst : c ≤ t) (hlast : t ≤ c + ds.length) :
    t = c ∨ ∃ i d, t = c + 1 + i ∧ ds[i]? = some d ∧ t ∈ List.range' (c + 1) ds.length := by
  rcases Nat.eq_or_lt_of_le hfirst with rfl | hlt
  · exact .inl rfl
  · obtain ⟨i, rfl⟩ := Nat.exists_eq_add_of_le hlt
    have hi : i < ds.length := by omega
    exact .inr ⟨i, ds[i], rfl, List.getElem?_eq_getElem hi, List.mem_range'_1.2 ⟨by omega, by omega⟩⟩

/-- When the batch has ended, its members have. -/
theorem Underway.ended (h : Underway w ds c p) {outcome : Outcome}
    (hc : p.stage? c = some (.ended outcome)) (ht : t ∈ List.range' (c + 1) ds.length) :
    ∃ o, p.stage? t = some (.ended o) := by
  cases h.gathers with
  | underWay b hc' hr hm =>
    rw [hc] at hc'
    cases hc'
  | hasEnded b hc' hr hm hb hkept =>
    have hchild : p.parent? t = some c := by
      rw [hkept.children, hm, List.map_fst_zip (by simp)]
      exact ht
    obtain ⟨o, -, ho⟩ := hkept.ended hb hchild
    exact ⟨o, ho⟩

/-- What does not concern the way that the members are on goes on in any move. -/
theorem Underway.of_move (h : Underway w ds c p) (m : Move) (htracks : Tracks w ds (c + 1) (p.move m))
    (hcrewed : (∃ b, Crewed (p.move m) c (List.range' (c + 1) ds.length) b none) ∨
      ∃ outcome, (p.move m).stage? c = some (.ended outcome)) : Underway w ds c (p.move m) := by
  refine ⟨h.regular.move m, htracks, h.gathers.move h.regular.sound h.regular.kin m,
    fun i d hd => ?_, hcrewed⟩
  obtain ⟨s, hs, hpub⟩ := h.publishes i d hd
  obtain ⟨s', hs', hl⟩ := h.regular.sound.goes_move m _ s hs
  exact ⟨s', hs', hpub.leads hl⟩

/-- A task that has ended has a turn left over. -/
theorem Underway.run_ended (h : Underway w ds c p) {outcome o : Outcome}
    (hc : p.stage? c = some (.ended outcome)) (ht : p.stage? t = some (.ended o))
    (hready : t ∈ p.ready) :
    Underway w ds c (p.run t) ∧ (p.run t).effort (List.range' (c + 1) ds.length) + 1 ≤
      p.effort (List.range' (c + 1) ds.length) := by
  have hrun := run_of_ended ht hready
  have hstage : ∀ u, (p.run t).stage? u = p.stage? u := fun u => by
    rw [hrun]
    rfl
  have htracks : Tracks w ds (c + 1) (p.run t) :=
    h.tracks.mono (by rw [hrun]) (by rw [hrun]) fun _ _ _ => .of_eq (hstage _)
  exact ⟨h.of_move (.run t) htracks (.inr ⟨outcome, (hstage c).trans hc⟩),
    effort_turn hready (by rw [hrun]) fun u _ => hstage u⟩

/-- The turn of the batch is none of its members' business. -/
theorem Tracks.gather (h : Tracks w ds first p) {b : Batch} (hc : p.stage? c = some (.gathering b))
    (hlt : c < first) (hready : c ∈ p.ready) : Tracks w ds first (p.run c) := by
  rw [run_gathering hc hready]
  unfold Publisher.gather
  split
  · exact h.mono rfl rfl fun i d _ => .of_eq (stage?_setStage_of_ne (by omega))
  · exact h.mono rfl rfl fun _ _ _ => .stays _

/-- **A turn that counts** brings a batch nearer to its end. -/
theorem Underway.run (h : Underway w ds c p) (hnames : (ds.map (·.name)).Nodup)
    (hfirst : c ≤ t) (hlast : t ≤ c + ds.length) (hready : t ∈ p.ready) :
    Underway w ds c (p.run t) ∧ (p.run t).effort (List.range' (c + 1) ds.length) + 1 ≤
      p.effort (List.range' (c + 1) ds.length) := by
  rcases eq_or_mem_range' hfirst hlast with rfl | ⟨i, d, rfl, hd, ht⟩
  · rcases h.crewed with ⟨b, hcrewed⟩ | ⟨outcome, hc⟩
    · obtain ⟨hgathered, hle⟩ := hcrewed.gather hready
      exact ⟨h.of_move (.run t) (h.tracks.gather hcrewed.gathering (Nat.lt_succ_self t) hready)
        hgathered, hle⟩
    · exact h.run_ended hc hc hready
  · rcases h.crewed with ⟨b, hcrewed⟩ | ⟨outcome, hc⟩
    · have hkept : BatchKept p c b := h.regular.kin c _ hcrewed.gathering
      obtain ⟨s, hs, hmember⟩ := hkept.member _ (hcrewed.children _ ht)
      obtain ⟨hran, hle⟩ := hcrewed.run ht hs hmember hready
      exact ⟨h.of_move (.run _) (h.tracks.run h.regular.sound hnames hd) (.inl hran), hle⟩
    · obtain ⟨o, ho⟩ := h.ended hc ht
      exact h.run_ended hc ho hready

/-- **An answer that counts** does as well. -/
theorem Underway.answer (h : Underway w ds c p) (hnames : (ds.map (·.name)).Nodup)
    (hfirst : c ≤ t) (hlast : t ≤ c + ds.length) {k : Key} {handle : Handle} {d' : Definition}
    (hs : p.stage? t = some (.publishing k handle d')) {a : Answer}
    (ha : a.bare = (w.answers handle d').bare) :
    Underway w ds c (p.answerPublish t a) ∧
      (p.answerPublish t a).effort (List.range' (c + 1) ds.length) + 1 ≤
        p.effort (List.range' (c + 1) ds.length) := by
  rcases eq_or_mem_range' hfirst hlast with rfl | ⟨i, d, rfl, hd, ht⟩
  · exfalso
    rcases h.crewed with ⟨b, hcrewed⟩ | ⟨outcome, hc⟩
    · cases hcrewed.gathering.symm.trans hs
    · cases hc.symm.trans hs
  · rcases h.crewed with ⟨b, hcrewed⟩ | ⟨outcome, hc⟩
    · obtain ⟨hanswered, hle⟩ := hcrewed.answer h.regular.sound h.tracks.isOpen ht hs a
      refine ⟨h.of_move (.answerPublish _ a) (h.tracks.answer h.regular.sound hnames hd ?_)
        (.inl hanswered), hle⟩
      intro k₁ handle₁ d₁ hs₁
      cases hs.symm.trans hs₁
      exact ha
    · obtain ⟨o, ho⟩ := h.ended hc ht
      cases ho.symm.trans hs

/-- **A batch has been asked for**, as the last task of all, and has not begun. -/
structure Awaited (w : Circumstances) (o : RegistryOptions) (ds : List Definition) (c : Nat)
    (p : Publisher) : Prop where
  regular : p.Regular
  asked : p.stage? c = some (.asked (.publishAll o ds))
  length : p.tasks.length = c + 1
  ready : c ∈ p.ready
  isOpen : p.registrar.closed = false
  registrar : p.registrar = w.registrar
  listening : p.listening = w.listening
  limit : ∀ n, p.limit = some n → n ≤ Batch.mostPermits

/-- **The first turn of a batch.** -/
theorem Awaited.begin (h : Awaited w o ds c p) (hne : ds ≠ []) (ho : o.canonical? = .ok w.options)
    (hagain : w.options.canonical? = .ok w.options) :
    Underway w ds c (p.run c) ∧
      (p.run c).effort (List.range' (c + 1) ds.length) + 1 ≤ p.ready.length + 4 * ds.length := by
  have hrun := run_publishAll_eq h.ready h.asked hne ho h.limit
  rcases h.regular.sound.begun h.ready h.asked hne ho with
    ⟨n, message, hn, hmany, -⟩ | ⟨hgathers, hmembers⟩
  · have hfew := h.limit n hn
    have hone : 1 ≤ Batch.mostPermits := by decide
    omega
  · obtain ⟨hcrewed, hle⟩ := h.regular.kin.crewed_begin h.ready h.asked hne ho h.limit hmembers
    rw [h.length] at hgathers hmembers hcrewed hle
    have hsame : (p.run c).registrar = p.registrar := by
      rw [hrun]
      rfl
    have htracks : Tracks w ds (c + 1) (p.run c) := by
      refine tracks_begin (by rw [hsame, h.isOpen]) (by rw [hsame, h.registrar])
        (by rw [hrun]; exact h.listening.symm) fun i d s hd hs => ?_
      rw [hmembers i d hd] at hs
      cases hs
      exact ⟨trivial, hagain, rfl⟩
    exact ⟨⟨h.regular.move (.run c), htracks, hgathers,
      fun i d hd => ⟨_, hmembers i d hd, rfl, rfl⟩, .inl ⟨_, hcrewed⟩⟩, hle⟩

/-- A batch of nothing is refused. -/
theorem Awaited.refuse (h : Awaited w o [] c p) :
    p.run c = Publisher.setStage { p with ready := p.ready.erase c } c
      (.ended (.failed .nothingToPublish)) := by
  obtain ⟨parent, htask⟩ := stage?_eq_some_iff.1 h.asked
  have hparent : p.parent? c = none :=
    h.regular.kin.orphan h.regular.sound.parents h.asked id (by simp) (by simp)
  have hnone : parent = none := by rwa [parent?, htask] at hparent
  simp only [Publisher.run, List.contains_iff_mem.2 h.ready, ite_true, htask, Publisher.begin,
    beginBatch, List.isEmpty_nil, finish, hnone, Option.bind_some]

/-- A turn of nobody changes nothing else. -/
theorem Awaited.turn (h : Awaited w o ds c p) (hne : t ≠ c) (hlt : c ≤ t) (hready : t ∈ p.ready) :
    Awaited w o ds c (p.run t) ∧ (p.run t).ready.length + 1 = p.ready.length := by
  have hlength := h.length
  have hnone : p.tasks[t]? = none := List.getElem?_eq_none (by omega)
  have hrun : p.run t = { p with ready := p.ready.erase t } := by
    simp only [Publisher.run, List.contains_iff_mem.2 hready, ite_true, hnone]
  have hregular := h.regular.move (.run t)
  rw [Publisher.move, hrun] at hregular
  rw [hrun]
  refine ⟨{ h with
    regular := hregular
    ready := (List.mem_erase_of_ne hne.symm).2 h.ready }, ?_⟩
  have hpos := List.length_pos_of_mem hready
  show (p.ready.erase t).length + 1 = p.ready.length
  rw [List.length_erase_of_mem hready]
  omega

/-- **Where a batch stands**, and how many moves may still make a difference to it. Its task is `c`. -/
inductive Stands (w : Circumstances) (o : RegistryOptions) (ds : List Definition) (c : Nat)
    (p : Publisher) : Nat → Prop
  /-- It has not begun. -/
  | awaited (h : Awaited w o ds c p) : Stands w o ds c p (p.ready.length + 4 * ds.length)
  /-- There was nothing to publish. -/
  | refused (hnil : ds = []) (hc : p.stage? c = some (.ended (.failed .nothingToPublish)))
      (hregistrar : p.registrar = w.registrar) : Stands w o ds c p p.ready.length
  /-- It has begun. -/
  | begun (h : Underway w ds c p) (hne : ds ≠ []) :
      Stands w o ds c p (p.effort (List.range' (c + 1) ds.length))

/-- Only the tasks of a batch that is under way wait for answers, and only as publishes. -/
theorem Stands.calling (h : Stands w o ds c p n) (hfirst : c ≤ t) (hlast : t ≤ c + ds.length)
    (hs : p.stage? t = some s) (hcalling : s.IsCalling) :
    (Underway w ds c p ∧ ds ≠ [] ∧ n = p.effort (List.range' (c + 1) ds.length)) ∧
      ∃ k handle d, s = .publishing k handle d := by
  cases h with
  | awaited h =>
    have hlt := lt_length_of_stage? hs
    have hlength := h.length
    have htc : t = c := by omega
    rw [htc, h.asked] at hs
    cases hs
    exact hcalling.elim
  | refused hnil hc hregistrar =>
    have htc : t = c := by
      rw [hnil, List.length_nil] at hlast
      omega
    rw [htc, hc] at hs
    cases hs
    exact hcalling.elim
  | begun h hne =>
    refine ⟨⟨h, hne, rfl⟩, ?_⟩
    rcases eq_or_mem_range' hfirst hlast with rfl | ⟨i, d, rfl, hd, -⟩
    · rcases h.crewed with ⟨b, hcrewed⟩ | ⟨outcome, hc⟩
      · cases hcrewed.gathering.symm.trans hs
        exact hcalling.elim
      · cases hc.symm.trans hs
        exact hcalling.elim
    · have hfits := h.tracks.fits i d s hd hs
      cases s with
      | publishing k handle d' => exact ⟨k, handle, d', rfl⟩
      | unpublishing | tryingPublish | tryingUnpublish => exact hfits.elim
      | _ => exact hcalling.elim

/-- A move that makes no difference changes nothing. -/
theorem Stands.move_eq (h : Stands w o ds c p n) {m : Move} (hm : m.Within c (c + ds.length))
    (hno : ¬ m.Counts p) : p.move m = p := by
  cases hm with
  | run t hfirst hlast =>
    have hidle : ¬ p.ready.contains t = true := fun hready => hno (List.contains_iff_mem.1 hready)
    show p.run t = p
    unfold Publisher.run
    rw [if_neg hidle]
  | answer t a hfirst hlast =>
    show p.answerPublish t a = p
    unfold answerPublish
    split
    · rename_i k handle d' hs
      exact absurd ⟨k, handle, d', hs⟩ hno
    · rename_i handle d' hs
      obtain ⟨-, k, handle', d, he⟩ := h.calling hfirst hlast hs trivial
      cases he
    · rfl

/-- **A turn that counts** leaves fewer moves to come. -/
theorem Stands.run (h : Stands w o ds c p n) (hnames : (ds.map (·.name)).Nodup)
    (ho : o.canonical? = .ok w.options) (hagain : w.options.canonical? = .ok w.options)
    (hfirst : c ≤ t) (hlast : t ≤ c + ds.length) (hready : t ∈ p.ready) :
    ∃ n', n' + 1 ≤ n ∧ Stands w o ds c (p.run t) n' := by
  have hpos := List.length_pos_of_mem hready
  have herase := List.length_erase_of_mem hready
  cases h with
  | awaited h =>
    by_cases htc : t = c
    · subst htc
      by_cases hne : ds = []
      · subst hne
        rw [h.refuse]
        refine ⟨_, ?_, .refused rfl (stage?_setStage_self h.asked) h.registrar⟩
        show (p.ready.erase t).length + 1 ≤ p.ready.length + 4 * 0
        omega
      · obtain ⟨hbegun, hle⟩ := h.begin hne ho hagain
        exact ⟨_, hle, .begun hbegun hne⟩
    · obtain ⟨hawaited, hlen⟩ := h.turn htc hfirst hready
      exact ⟨_, by omega, .awaited hawaited⟩
  | refused hnil hc hregistrar =>
    have htc : t = c := by
      rw [hnil, List.length_nil] at hlast
      omega
    subst htc
    rw [run_of_ended hc hready]
    refine ⟨_, ?_, .refused hnil hc hregistrar⟩
    show (p.ready.erase t).length + 1 ≤ p.ready.length
    omega
  | begun h hne =>
    obtain ⟨hran, hle⟩ := h.run hnames hfirst hlast hready
    exact ⟨_, hle, .begun hran hne⟩

/-- **An answer that counts** does as well. -/
theorem Stands.answer (h : Stands w o ds c p n) (hnames : (ds.map (·.name)).Nodup)
    (hfirst : c ≤ t) (hlast : t ≤ c + ds.length) {k : Key} {handle : Handle} {d' : Definition}
    (hs : p.stage? t = some (.publishing k handle d')) {a : Answer}
    (ha : a.bare = (w.answers handle d').bare) :
    ∃ n', n' + 1 ≤ n ∧ Stands w o ds c (p.answerPublish t a) n' := by
  obtain ⟨⟨hunderway, hne, rfl⟩, -⟩ := h.calling hfirst hlast hs trivial
  obtain ⟨hanswered, hle⟩ := hunderway.answer hnames hfirst hlast hs ha
  exact ⟨_, hle, .begun hanswered hne⟩

/-- **All along a schedule** a batch stands somewhere, and as many moves as made a difference are not
to come any more. -/
theorem Stands.moves (h : Stands w o ds c p n) (hnames : (ds.map (·.name)).Nodup)
    (ho : o.canonical? = .ok w.options) (hagain : w.options.canonical? = .ok w.options)
    {ms : List Move} (hms : ∀ m ∈ ms, m.Within c (c + ds.length)) (hfollows : Follows w.answers p ms) :
    ∃ n', n' ≤ n ∧ Stands w o ds c (p.moves ms) n' ∧ (Busy p ms → ms.length + n' ≤ n) := by
  induction ms generalizing p n with
  | nil => exact ⟨n, le_rfl, h, fun _ => by simp⟩
  | cons m ms ih =>
    obtain ⟨hanswer, hfollows⟩ := hfollows
    have hm := hms m List.mem_cons_self
    have hrest := fun m' hm' => hms m' (List.mem_cons_of_mem m hm')
    by_cases hcounts : m.Counts p
    · obtain ⟨n₁, hlt, h₁⟩ : ∃ n₁, n₁ + 1 ≤ n ∧ Stands w o ds c (p.move m) n₁ := by
        cases hm with
        | run t hfirst hlast => exact h.run hnames ho hagain hfirst hlast hcounts
        | answer t a hfirst hlast =>
          obtain ⟨k, handle, d, hs⟩ := hcounts
          exact h.answer hnames hfirst hlast hs (hanswer k handle d hs)
      obtain ⟨n', hle, h', hbusy⟩ := ih h₁ hrest hfollows
      refine ⟨n', by omega, h', fun ⟨_, hb⟩ => ?_⟩
      have := hbusy hb
      rw [List.length_cons]
      omega
    · rw [h.move_eq hm hcounts] at hfollows
      obtain ⟨n', hle, h', -⟩ := ih h hrest hfollows
      refine ⟨n', hle, ?_, fun ⟨hb, _⟩ => absurd hb hcounts⟩
      show Stands w o ds c ((p.move m).moves ms) n'
      rw [h.move_eq hm hcounts]
      exact h'

/-- **As long as a batch has not ended** something can happen to it. -/
theorem Stands.can_move (h : Stands w o ds c p n) (hout : p.outcome? c = none) :
    ∃ m : Move, m.Within c (c + ds.length) ∧ m.Counts p ∧ Follows w.answers p [m] := by
  have notEnded : ∀ outcome, p.stage? c ≠ some (.ended outcome) := fun outcome hc => by
    rw [outcome?_eq_some_iff.2 hc] at hout
    cases hout
  have turn : ∀ t, c ≤ t → t ≤ c + ds.length → t ∈ p.ready →
      ∃ m : Move, m.Within c (c + ds.length) ∧ m.Counts p ∧ Follows w.answers p [m] :=
    fun t hfirst hlast hready => ⟨.run t, .run t hfirst hlast, hready, trivial, trivial⟩
  cases h with
  | awaited h => exact turn c le_rfl (by omega) h.ready
  | refused hnil hc => exact absurd hc (notEnded _)
  | begun h hne =>
    rcases h.crewed with ⟨b, hcrewed⟩ | ⟨outcome, hc⟩
    · have hkept : BatchKept p c b := h.regular.kin c _ hcrewed.gathering
      have hnumbers : b.members.map (·.1) = List.range' (c + 1) ds.length := by
        cases h.gathers with
        | underWay b' hc' hr hm =>
          cases hcrewed.gathering.symm.trans hc'
          rw [hm, List.map_fst_zip (by simp)]
        | hasEnded b' hc' => exact absurd hc' (notEnded _)
      rw [← hnumbers] at hcrewed
      rcases hcrewed.busy hkept with hready | ⟨t, ht, hbusy⟩
      · exact turn c le_rfl (by omega) hready
      · rw [hnumbers, List.mem_range'_1] at ht
        rcases hbusy with hready | ⟨k, handle, d, hs⟩
        · exact turn t (by omega) (by omega) hready
        · -- the registry may answer as the client does
          refine ⟨.answerPublish t (w.answers handle d), .answer t _ (by omega) (by omega),
            ⟨k, handle, d, hs⟩, fun k' handle' d' hs' => ?_, trivial⟩
          cases hs.symm.trans hs'
          rfl
    · exact absurd hc (notEnded outcome)

/-! ## Both together -/

/-- A batch that has ended gives account of its members, all of which have ended. -/
theorem Underway.account (h : Underway w ds c p) (htrim : Text.trim w.options.name = w.options.name)
    {out : Outcome} (hout : p.outcome? c = some out) :
    AllEnded ds (c + 1) p ∧
      ∃ gs parts, p.BatchAccount c (c + 1) w.options.name ds gs parts out := by
  rw [outcome?_eq_some_iff] at hout
  refine ⟨fun i d hd => ?_, ?_⟩
  · have hi := (List.getElem?_eq_some_iff.1 hd).1
    obtain ⟨o, ho⟩ := h.ended (t := c + 1 + i) hout
      (List.mem_range'_1.2 ⟨by omega, by omega⟩)
    exact ⟨o, outcome?_eq_some_iff.2 ho⟩
  · cases h.gathers with
    | underWay b hc hr hm =>
      rw [hout] at hc
      cases hc
    | hasEnded b hc hr hm hb hkept =>
      rw [hout] at hc
      cases hc
      exact ⟨_, _, hkept.account h.regular.numbered hb hr htrim hm h.publishes⟩

/-- Who ends alike is told of alike. -/
theorem Accounts.toldAs {registry schema : String} {e : Registration ⊕ Part Failure}
    (h : p.Accounts registry schema t e) {outcome : Outcome}
    (halike : ∀ o, p.outcome? t = some o → o.bare = outcome.bare) :
    outcome.ToldAs registry schema e := by
  cases h with
  | committed g ho hk =>
    have hbare := halike _ ho
    cases outcome with
    | registered g' => exact .registered g' g (Outcome.registered.inj hbare)
    | _ => cases hbare
  | failed failure ho =>
    have hbare := halike _ ho
    cases outcome with
    | failed failure' =>
      cases hbare
      exact .failed failure
    | _ => cases hbare
  | lost message ho =>
    have hbare := halike _ ho
    cases outcome with
    | broken message' =>
      cases hbare
      exact .lost message t
    | _ => cases hbare

/-- **The batch of task `c` comes to what its schemas come to one by one**, by the tasks from `c` on. -/
structure SameAsOneByOne (batch single : Publisher) (c : Nat) (registry : String)
    (ds : List Definition) (out : Outcome) : Prop where
  /-- Its outcome has an entry for each schema, which tells of what the single publish came to. -/
  outcome : ∃ es : List (Nat × (Registration ⊕ Part Failure)),
    (es.map (·.1)).Perm (List.range ds.length) ∧
    (∀ i e, (i, e) ∈ es → ∃ d o, ds[i]? = some d ∧ single.outcome? (c + i) = some o ∧
      o.ToldAs registry d.name e) ∧
    out = .ofEntries registry (es.map (·.2))
  /-- The same keys are reserved, and the same registrations are live. -/
  slots : ∀ k, (batch.registrar.slots.get? k).map Slot.bare =
    (single.registrar.slots.get? k).map Slot.bare
  /-- There are the same handles. -/
  handles : batch.registrar.handles = single.registrar.handles

/-- **Schemas are published in two ways.** A batch is asked for and then only its own tasks have turns
and answers, in any order; or the schemas are published one by one. -/
structure TwoWays (p : Publisher) (o : RegistryOptions) (ds : List Definition)
    (client : Handle → Definition → Answer) (schedule : List Move) (answers : Nat → Answer) : Prop where
  isOpen : p.registrar.closed = false
  named : Text.trim o.name ≠ ""
  different : (ds.map (·.name)).Nodup
  own : ∀ m ∈ schedule, m.Within p.tasks.length (p.tasks.length + ds.length)
  followsBatch : Follows client (p.ask (.publishAll o ds)) schedule
  followsSingle : Follows client p (oneByOne o answers p.tasks.length ds)

/-- **A batch that has ended** agrees with tasks that publish its schemas under the same circumstances
and have ended. -/
theorem Stands.sameAsOneByOne (h : Stands w o ds c p n)
    (htrim : Text.trim w.options.name = w.options.name) {single : Publisher}
    (hsingle : Tracks w ds c single) (hended : AllEnded ds c single)
    (hnil : ds = [] → single.registrar = w.registrar) {out : Outcome}
    (hout : p.outcome? c = some out) : SameAsOneByOne p single c w.options.name ds out := by
  cases h with
  | awaited h =>
    rw [outcome?_eq_some_iff, h.asked] at hout
    cases hout
  | refused hds hc hregistrar =>
    rw [outcome?_eq_some_iff, hc] at hout
    cases hout
    refine ⟨⟨[], by simp [hds], by simp, rfl⟩, fun k => ?_, ?_⟩ <;> rw [hregistrar, hnil hds]
  | begun h hne =>
    obtain ⟨hmembers, gs, parts, haccount⟩ := h.account htrim hout
    refine ⟨?_, h.tracks.same_slots hmembers hsingle hended,
      h.tracks.same_handles hmembers hsingle hended⟩
    obtain ⟨es, hperm, hentries, hgs, hparts⟩ := haccount.entries
    refine ⟨es, hperm, fun i e he => ?_, ?_⟩
    · obtain ⟨d, hd, haccounts⟩ := hentries i e he
      obtain ⟨outcome, houtcome⟩ := hended i d hd
      refine ⟨d, outcome, hd, houtcome, haccounts.toldAs fun o' ho' => ?_⟩
      rw [h.tracks.outcome hd ho', hsingle.outcome hd houtcome]
    · have hlen : es.length = ds.length := by simpa using hperm.length_eq
      have hsome : (es.map (·.2)).isEmpty = false := by
        rw [List.isEmpty_eq_false_iff]
        intro he
        rw [List.map_eq_nil_iff] at he
        rw [he] at hlen
        exact hne (List.eq_nil_of_length_eq_zero hlen.symm)
      have hgs' : (es.map (·.2)).filterMap Sum.getLeft? = gs := by
        rw [hgs, List.filterMap_map]
        rfl
      have hparts' : (es.map (·.2)).filterMap Sum.getRight? = parts := by
        rw [hparts, List.filterMap_map]
        rfl
      unfold Outcome.ofEntries
      rw [hgs', hparts', hsome, List.length_map, hlen]
      rcases haccount.outcome with ⟨rfl, rfl⟩ | ⟨hfailed, rfl⟩
      · rfl
      · simp [List.isEmpty_iff, hfailed]

/-- A batch that is asked for now is the last task of all. -/
theorem Regular.awaited (h : p.Regular) (hopen : p.registrar.closed = false)
    (hregistrar : w.registrar = p.registrar) (hlistening : w.listening = p.listening)
    (hlimit : ∀ n, p.limit = some n → n ≤ Batch.mostPermits) :
    Awaited w o ds p.tasks.length (p.ask (.publishAll o ds)) := by
  refine ⟨h.move (.ask _), ?_, ?_, mem_ready_wake.2 (.inr (by simp)), hopen, hregistrar.symm,
    hlistening.symm, hlimit⟩
  · rw [stage?_append (tasks_ask p _), if_neg (Nat.lt_irrefl _), Nat.sub_self]
    rfl
  · rw [tasks_ask, List.length_append]
    rfl

/-- Of the schemas that are to be published now none has been. -/
theorem Regular.publishedUpTo (h : p.Regular) (hopen : p.registrar.closed = false)
    (hregistrar : w.registrar = p.registrar) (hlistening : w.listening = p.listening) :
    PublishedUpTo w ds p.tasks.length 0 p := by
  refine ⟨h.sound, tracks_begin hopen hregistrar hlistening fun i d s hd hs => ?_, rfl,
    fun j hj => absurd hj (Nat.not_lt_zero j)⟩
  have hlt := lt_length_of_stage? hs
  omega

/-- **A batch comes to what its schemas come to one by one.** A publisher has done anything before and
is open now. Schemas with different names are published to a registry with a name, whose client
answers according to the handle and the definition alone, but for ids; and there is no limit for a
batch, or any one but a limit beyond the number of permits that there can be. Then a batch that has
ended agrees with the single publishes, whatever order its tasks and the answers came in. While it has
not ended there is a move that makes a difference, and there are only so many of them. -/
theorem batch_oneByOne (id : String) (listening : Bool) (limit : Option Nat) (past : List Move)
    (p : Publisher) (hp : p = (fresh id listening limit).moves past) (o : RegistryOptions)
    (ds : List Definition) (client : Handle → Definition → Answer) (schedule : List Move)
    (answers : Nat → Answer) (hlimit : ∀ n, limit = some n → n ≤ Batch.mostPermits)
    (h : TwoWays p o ds client schedule answers) :
    (∀ out, ((p.ask (.publishAll o ds)).moves schedule).outcome? p.tasks.length = some out →
      SameAsOneByOne ((p.ask (.publishAll o ds)).moves schedule)
        (p.moves (oneByOne o answers p.tasks.length ds)) p.tasks.length (Text.trim o.name) ds out) ∧
    (((p.ask (.publishAll o ds)).moves schedule).outcome? p.tasks.length = none →
      ∃ m : Move, m.Within p.tasks.length (p.tasks.length + ds.length) ∧
        m.Counts ((p.ask (.publishAll o ds)).moves schedule) ∧
        Follows client ((p.ask (.publishAll o ds)).moves schedule) [m]) ∧
    (Busy (p.ask (.publishAll o ds)) schedule →
      schedule.length ≤ p.ready.length + 1 + 4 * ds.length) := by
  have hregular : p.Regular := hp ▸ regular_moves id listening limit past
  have hlimit' : p.limit = limit := by
    rw [hp, limit_moves]
    rfl
  have ho : o.canonical? = .ok { o with name := Text.trim o.name } :=
    RegistryOptions.canonical?_eq_ok_iff.2 ⟨h.named, rfl⟩
  have hagain : RegistryOptions.canonical? { o with name := Text.trim o.name } =
      .ok { o with name := Text.trim o.name } :=
    RegistryOptions.canonical?_eq_ok_iff.2 ⟨by rw [Text.trim_trim]; exact h.named, by
      rw [Text.trim_trim]⟩
  -- both ways begin under the same circumstances
  generalize hw : (⟨p.registrar, { o with name := Text.trim o.name }, p.listening, client⟩ :
    Circumstances) = w
  have hoptions : w.options = { o with name := Text.trim o.name } := by rw [← hw]
  have hanswers : w.answers = client := by rw [← hw]
  rw [← hoptions] at ho hagain
  have htrim : Text.trim w.options.name = w.options.name := by
    rw [hoptions]
    exact Text.trim_trim _
  have hregistrar : w.registrar = p.registrar := by rw [← hw]
  have hlistening : w.listening = p.listening := by rw [← hw]
  have hawaited : Awaited w o ds p.tasks.length (p.ask (.publishAll o ds)) :=
    hregular.awaited h.isOpen hregistrar hlistening fun n hn => hlimit n (hlimit' ▸ hn)
  have hbatch := hanswers ▸ h.followsBatch
  have hsingle := hanswers ▸ h.followsSingle
  obtain ⟨n, -, hstands, hbusy⟩ := (Stands.awaited hawaited).moves h.different ho hagain h.own hbatch
  have hbegin : PublishedUpTo w ds p.tasks.length 0 p :=
    hregular.publishedUpTo h.isOpen hregistrar hlistening
  have hall : PublishedUpTo w ds p.tasks.length (0 + ds.length)
      (p.moves (oneByOne o answers p.tasks.length ds)) :=
    hbegin.all h.different ho List.drop_zero hsingle
  refine ⟨fun out hout => ?_, fun hout => ?_, fun hb => ?_⟩
  · have hended : AllEnded ds p.tasks.length (p.moves (oneByOne o answers p.tasks.length ds)) :=
      fun i d hd => by
        have hi := (List.getElem?_eq_some_iff.1 hd).1
        exact hall.ended i (by omega)
    have hsame := hstands.sameAsOneByOne htrim hall.tracks hended (fun hnil => by
      rw [hnil, hregistrar]
      rfl) hout
    rwa [hoptions] at hsame
  · rw [← hanswers]
    exact hstands.can_move hout
  · have hlen := hbusy hb
    have hready : (p.ask (.publishAll o ds)).ready.length ≤ p.ready.length + 1 :=
      length_ready_wake_le _ [p.tasks.length]
    omega

/-- A registry that knows one schema and breaks off at the others. -/
def knowsOne (_ : Handle) (d : Definition) : Answer :=
  if d.schema.name = "s" then .record ⟨"1", "s", none, {}⟩ else .broken "unknown"

/-- One that is known, one that is not, and one without a name. -/
def knownAndOthers : List Definition :=
  [{ schema := ⟨"s", "1"⟩ }, { schema := ⟨"t", "2"⟩ }, { schema := ⟨" ", "3"⟩ }]

/-- The second one gets the only permit, and the others wait for it. -/
def secondFirst : List Move :=
  [.run 0, .run 2, .run 1, .run 3, .answerPublish 2 (.broken "unknown"), .run 1,
    .answerPublish 1 (.record ⟨"2", "s", none, {}⟩), .run 3, .run 0]

/-- What the registry answers to them one by one. -/
def answersOneByOne (t : Nat) : Answer :=
  if t = 0 then .record ⟨"1", "s", none, {}⟩ else .broken "unknown"

theorem batch_oneByOne_secondFirst :
    (∀ n, some 0 = some n → n ≤ Batch.mostPermits) ∧
      TwoWays (fresh "id" true (some 0)) { name := " r" } knownAndOthers knowsOne secondFirst
        answersOneByOne ∧
      ∃ out, (((fresh "id" true (some 0)).ask (.publishAll { name := " r" } knownAndOthers)).moves
          secondFirst).outcome? 0 = some out ∧
        SameAsOneByOne (((fresh "id" true (some 0)).ask
            (.publishAll { name := " r" } knownAndOthers)).moves secondFirst)
          ((fresh "id" true (some 0)).moves
            (oneByOne { name := " r" } answersOneByOne 0 knownAndOthers)) 0 (Text.trim " r")
          knownAndOthers out := by
  have hlimit : ∀ n, some 0 = some n → n ≤ Batch.mostPermits := fun n hn => by
    cases hn
    exact Nat.zero_le _
  have h : TwoWays (fresh "id" true (some 0)) { name := " r" } knownAndOthers knowsOne secondFirst
      answersOneByOne := by
    refine ⟨rfl, by decide +kernel, by decide +kernel, ?_, ?_, ?_⟩
    · simp only [secondFirst, List.forall_mem_cons]
      refine ⟨.run 0 ?_ ?_, .run 2 ?_ ?_, .run 1 ?_ ?_, .run 3 ?_ ?_, .answer 2 _ ?_ ?_, .run 1 ?_ ?_,
        .answer 1 _ ?_ ?_, .run 3 ?_ ?_, .run 0 ?_ ?_, fun m hm => absurd hm List.not_mem_nil⟩
      all_goals decide
    · simp only [secondFirst, Follows]
      refine ⟨trivial, trivial, trivial, trivial, fun k handle d hs => ?_, trivial,
        fun k handle d hs => ?_, trivial, trivial, trivial⟩
      all_goals cases hs
      all_goals rfl
    · simp only [knownAndOthers, oneByOne, Follows]
      refine ⟨trivial, trivial, fun k handle d hs => ?_, trivial, trivial, fun k handle d hs => ?_,
        trivial, trivial, fun k handle d hs => ?_, trivial⟩
      all_goals cases hs
      all_goals rfl
  have hended : (((fresh "id" true (some 0)).ask (.publishAll { name := " r" }
      knownAndOthers)).moves secondFirst).outcome? 0 |>.isSome := by
    rfl
  obtain ⟨out, hout⟩ := Option.isSome_iff_exists.1 hended
  exact ⟨hlimit, h, out, hout, (batch_oneByOne "id" true (some 0) [] _ rfl { name := " r" }
    knownAndOthers knowsOne secondFirst answersOneByOne hlimit h).1 out hout⟩

/-- **A limit beyond the number of permits that there can be** breaks a batch off before it has made a
task, and a schema that could be published by itself is not. -/
theorem batch_oneByOne_tooManyPermits :
    TwoWays (fresh "id" true (some (Batch.mostPermits + 1))) { name := "r" }
        [{ schema := ⟨"s", "1"⟩ }] knowsOne [.run 0] answersOneByOne ∧
      ∃ message,
        (((fresh "id" true (some (Batch.mostPermits + 1))).ask
            (.publishAll { name := "r" } [{ schema := ⟨"s", "1"⟩ }])).moves [.run 0]).outcome? 0 =
          some (.broken message) ∧
        ¬ SameAsOneByOne (((fresh "id" true (some (Batch.mostPermits + 1))).ask
              (.publishAll { name := "r" } [{ schema := ⟨"s", "1"⟩ }])).moves [.run 0])
            ((fresh "id" true (some (Batch.mostPermits + 1))).moves
              (oneByOne { name := "r" } answersOneByOne 0 [{ schema := ⟨"s", "1"⟩ }])) 0
            (Text.trim "r") [{ schema := ⟨"s", "1"⟩ }] (.broken message) := by
  refine ⟨⟨rfl, by decide +kernel, by decide +kernel, ?_, ⟨trivial, trivial⟩, ?_⟩, _, rfl,
    fun h => ?_⟩
  · intro m hm
    rw [List.mem_singleton.1 hm]
    exact .run 0 le_rfl (Nat.zero_le _)
  · simp only [oneByOne, Follows]
    refine ⟨trivial, trivial, fun k handle d hs => ?_, trivial⟩
    cases hs
    rfl
  · obtain ⟨es, -, -, hout⟩ := h.outcome
    unfold Outcome.ofEntries at hout
    dsimp only at hout
    split at hout
    · cases hout
    · split at hout <;> cases hout

end Publisher
end SchemaHerald
