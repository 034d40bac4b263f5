import SchemaHerald.Proofs.RosterRuns

/-!
# The limit of a batch

A batch may be limited to so many publishes at once. From its first turn on it is a roster whose members
are the tasks made for its definitions (`Begun`), and every move is a step of that roster
(`Begun.move`). Whatever its members do and whatever they are answered, the permits add up, the turns and
answers of the members are limited in number (`Begun.dueMoves_add`), and when none of them is due any
more all have ended (`Begun.ended_of_idle`): no permit is lost, so that nobody waits forever.

How the members are ordered depends on the order of the turns. `firstInFirstOut` says what a queue of
tasks makes of it; a permit that comes back goes to the first who waits in any case. Then the members
come in the order of their definitions (`Begun.inOrder`).
-/
namespace SchemaHerald

/-- What a publish is for that has not begun is what it was made for. -/
theorem Stage.Publishes.definition {o : RegistryOptions} {d d' : Definition} {s : Stage}
    (h : s.Publishes o d) (hd : s.definition? = some d') : d' = d := by
  cases s with
  | asked request =>
    cases request with
    | publish =>
      cases hd
      exact h.2
    | _ => cases hd
  | queued | permitted =>
    cases hd
    exact h.2
  | _ => cases hd

/-- A publish has an outcome when it has ended. -/
theorem Stage.Publishes.ended {o : RegistryOptions} {d : Definition} {s : Stage}
    (h : s.Publishes o d) (hended : s.phase = .ended) : ∃ out, s = .ended out := by
  cases s with
  | ended out => exact ⟨out, rfl⟩
  | asked | queued | permitted | publishing => cases hended
  | _ => exact h.elim

namespace Move

/-- Whether a move is the turn of a task. -/
def isTurnOf (t : Nat) : Move → Bool
  | .run u => u == t
  | _ => false

/-- Whether a move is an answer to a task that has the registry called to publish. -/
def isAnswerTo (t : Nat) : Move → Bool
  | .answerPublish u _ => u == t
  | _ => false

theorem eq_of_isTurnOf {t : Nat} {m : Move} (h : m.isTurnOf t = true) : m = .run t := by
  cases m with
  | run u => exact congrArg run (beq_iff_eq.1 h)
  | _ => cases h

theorem exists_of_isAnswerTo {t : Nat} {m : Move} (h : m.isAnswerTo t = true) :
    ∃ a, m = .answerPublish t a := by
  cases m with
  | answerPublish u a => exact ⟨a, congrArg (answerPublish · a) (beq_iff_eq.1 h)⟩
  | _ => cases h

end Move

namespace Publisher

variable {p q : Publisher} {id : String} {c first t u n i : Nat} {o o' : RegistryOptions}
  {d : Definition} {ds : List Definition} {limit : Option Nat} {b b₀ : Batch} {m : Move}
  {ms pre suf : List Move} {a : Answer}

/-! ## A batch that has begun -/

/-- What the registry is called with for the members of a batch, which are tasks one after the
other. -/
def signing (id : String) (first : Nat) (ds : List Definition) (t : Nat) : Definition :=
  ((ds[t - first]?).getD default).stamp id

/-- The members and what they publish, in the order of the definitions. -/
theorem map_signing (id : String) (first : Nat) (ds : List Definition) :
    (List.range' first ds.length).map (fun t => (t, signing id first ds t)) =
      (List.range' first ds.length).zip (ds.map (·.stamp id)) := by
  refine List.ext_getElem (by simp) fun i hi _ => ?_
  have hlt : i < ds.length := by simpa using hi
  simp [signing, hlt]

/-- **A batch that has begun**: its members are the tasks from `first` on, one for each definition,
and it is sound as a roster. -/
structure Begun (p : Publisher) (id : String) (c first : Nat) (o : RegistryOptions)
    (ds : List Definition) (limit : Option Nat) (b : Batch) : Prop where
  orderly : p.Orderly
  publisher : p.registrar.publisher = id
  batch : p.HasBatch c b
  member : ∀ i d, ds[i]? = some d → p.parent? (first + i) = some c ∧
    ∃ s, p.stage? (first + i) = some s ∧ s.Publishes o d
  sound : (p.roster c b).Sound (List.range' first ds.length) limit

/-- Whoever has not ended is a member. -/
theorem Begun.exists_member (h : p.Begun id c first o ds limit b) (ht : p.phaseOf c t ≠ .ended) :
    ∃ i d, t = first + i ∧ ds[i]? = some d := by
  obtain ⟨hle, hlt⟩ := List.mem_range'_1.1 (h.sound.mem ht)
  obtain ⟨i, rfl⟩ := Nat.exists_eq_add_of_le hle
  exact ⟨i, _, rfl, List.getElem?_eq_getElem (by omega)⟩

/-- **Every move is a step** of the batch. -/
theorem Begun.move (h : p.Begun id c first o ds limit b) (m : Move) :
    ∃ b', (p.move m).Begun id c first o ds limit b' ∧
      (p.roster c b).Step (signing id first ds) m ((p.move m).roster c b') := by
  have hsign : ∀ t s d, p.parent? t = some c → p.stage? t = some s → s.definition? = some d →
      signing id first ds t = d.stamp p.registrar.publisher := by
    intro t s d hparent hs hd
    have hphase : p.phaseOf c t ≠ .ended := by
      rw [phaseOf_member hparent hs]
      cases s with
      | asked | queued | permitted => simp [Stage.phase]
      | _ => cases hd
    obtain ⟨i, d', rfl, hi⟩ := h.exists_member hphase
    obtain ⟨-, s', hs', hpublishes⟩ := h.member i d' hi
    cases hs.symm.trans hs'
    rw [signing, Nat.add_sub_cancel_left, hi, h.publisher, hpublishes.definition hd]
    rfl
  obtain ⟨b', hb', -, hstep⟩ :=
    h.orderly.sound.roster_move h.orderly.kin h.orderly.crews h.batch h.sound hsign m
  refine ⟨b', ⟨h.orderly.move m, (h.orderly.sound.publisher_move m).trans h.publisher, hb',
    fun i d hd => ?_, h.sound.step hstep⟩, hstep⟩
  obtain ⟨hparent, s, hs, hpublishes⟩ := h.member i d hd
  obtain ⟨s', hs', hleads⟩ := h.orderly.sound.goes_moves [m] _ s hs
  exact ⟨(h.orderly.sound.parent?_move hs m).trans hparent, s', hs', hpublishes.leads hleads⟩

theorem Begun.moves (h : p.Begun id c first o ds limit b) (ms : List Move) :
    ∃ b', (p.moves ms).Begun id c first o ds limit b' := by
  induction ms generalizing p b with
  | nil => exact ⟨b, h⟩
  | cons m ms ih =>
    obtain ⟨b', h', -⟩ := h.move m
    exact ih h'

/-- **The first turn of a batch** makes it one that has begun, with everyone fresh. -/
theorem Orderly.begun (h : p.Orderly) (hc : p.stage? c = some (.asked (.publishAll o ds)))
    (hrun : p.run c = (Publisher.withBatch { p with ready := p.ready.erase c } c o' ds).wake
      (List.range' p.tasks.length ds.length)) :
    (p.run c).Begun p.registrar.publisher c p.tasks.length o' ds (p.limit.map (max 1))
        (p.newBatch o' ds) ∧
      (p.run c).roster c (p.newBatch o' ds) =
        .start (List.range' p.tasks.length ds.length) (p.limit.map (max 1)) ∧
      ∀ i d, ds[i]? = some d → (p.run c).Awaits (p.tasks.length + i) o' d := by
  obtain ⟨hbatch, hroster⟩ := h.roster_begun hc hrun
  have hasked : ∀ i d, ds[i]? = some d →
      (p.run c).stage? (p.tasks.length + i) = some (.asked (.publish o' d)) := by
    intro i d hd
    rw [hrun]
    exact stage?_withBatch (p := { p with ready := p.ready.erase c }) (lt_length_of_stage? hc) hd
  refine ⟨⟨h.move (.run c), h.sound.publisher_move (.run c), .inl hbatch, fun i d hd => ?_, ?_⟩,
    hroster, fun i d hd => ⟨_, hasked i d hd, rfl, rfl⟩⟩
  · have hlt := (List.getElem?_eq_some_iff.1 hd).1
    exact ⟨(h.children_begun hc hrun _).2 (List.mem_range'_1.2 ⟨by omega, by omega⟩), _,
      hasked i d hd, rfl, rfl⟩
  · rw [hroster]
    exact Roster.sound_start List.nodup_range' _

/-! ## What is due -/

/-- Whether a move is the turn of a member of a batch, or the answer to its call. -/
def isDue (p : Publisher) (c : Nat) : Move → Bool
  | .run t => (p.turnsOf c).contains t
  | .answerPublish t _ => p.phaseOf c t = .calling
  | _ => false

/-- How many turns and answers the members of a batch have in a run. -/
def dueMoves (c : Nat) : Publisher → List Move → Nat
  | _, [] => 0
  | p, m :: ms => (if p.isDue c m then 1 else 0) + dueMoves c (p.move m) ms

theorem isDue_iff : p.isDue c m = true ↔ (p.roster c b).Due m := by
  cases m with
  | run t => exact List.contains_iff_mem
  | answerPublish t a => exact decide_eq_true_iff
  | _ => exact iff_of_false (by simp [isDue]) id

/-- **The turns and answers of the members** are used up. -/
theorem Begun.dueMoves_add (h : p.Begun id c first o ds limit b) (ms : List Move) :
    ∃ b', dueMoves c p ms + ((p.moves ms).roster c b').toCome (List.range' first ds.length) ≤
      (p.roster c b).toCome (List.range' first ds.length) := by
  induction ms generalizing p b with
  | nil => exact ⟨b, (Nat.zero_add _).le⟩
  | cons m ms ih =>
    obtain ⟨b₁, h₁, hstep⟩ := h.move m
    obtain ⟨b', hle⟩ := ih h₁
    refine ⟨b', ?_⟩
    show _ + dueMoves c (p.move m) ms + (((p.move m).moves ms).roster c b').toCome _ ≤ _
    by_cases hdue : p.isDue c m = true
    · have hlt := h.sound.toCome_lt hstep (isDue_iff.1 hdue)
      rw [if_pos hdue]
      omega
    · have hsame := hstep.eq_of_not_due fun hd => hdue (isDue_iff.2 hd)
      rw [hsame] at hle
      rw [if_neg hdue]
      omega

/-- **When nobody has a turn or waits for an answer** all members have ended. -/
theorem Begun.ended_of_idle (h : p.Begun id c first o ds limit b) (hlimit : limit ≠ some 0)
    (hturns : p.turnsOf c = []) (hcalls : p.inProgress c = []) (t : Nat) :
    p.phaseOf c t = .ended := by
  by_contra ht
  obtain ⟨u, hu | hu⟩ := h.sound.exists_due hlimit ht
  · have hmem : u ∈ p.turnsOf c := hu
    rw [hturns] at hmem
    cases hmem
  · have hmem := mem_inProgress_iff.2 hu
    rw [hcalls] at hmem
    cases hmem

/-! ## First in, first out -/

/-- **A member that has the registry called goes on** at once, or after all those members had a turn
that could go on then. What follows on the call is `ms`. -/
def goesOnInTurn (p : Publisher) (c t : Nat) (ms : List Move) : Bool :=
  let between := ms.takeWhile (!·.isAnswerTo t)
  !ms.any (·.isAnswerTo t) || between.isEmpty || (p.turnsOf c).all fun u => between.any (·.isTurnOf u)

/-- Whether a move is one of a queue of tasks, as far as the members of a batch are concerned: the one
that could go on first has its turn. -/
def inTurn (p : Publisher) (c : Nat) : Move → List Move → Bool
  | .run t, ms => !(p.turnsOf c).contains t || ((p.turnsOf c).head? == some t &&
      ((((p.run t).stage? t).bind Stage.key?).isNone || (p.run t).goesOnInTurn c t ms))
  | _, _ => true

/-- **The members of a batch have their turns first in, first out.** Nothing is said about the turns of
other tasks. -/
def firstInFirstOut (c : Nat) : Publisher → List Move → Bool
  | _, [] => true
  | p, m :: ms => p.inTurn c m ms && firstInFirstOut c (p.move m) ms

theorem firstInFirstOut_of_append (h : p.firstInFirstOut c (pre ++ suf) = true) :
    (p.moves pre).firstInFirstOut c suf = true := by
  induction pre generalizing p with
  | nil => exact h
  | cons m pre ih => exact ih (Bool.and_eq_true_iff.1 h).2

theorem inTurn_of_firstInFirstOut (h : p.firstInFirstOut c (pre ++ m :: suf) = true) :
    (p.moves pre).inTurn c m suf = true :=
  (Bool.and_eq_true_iff.1 (firstInFirstOut_of_append h)).1

theorem inTurn_run (h : p.inTurn c (.run t) ms = true) (ht : t ∈ p.turnsOf c) :
    (p.turnsOf c).head? = some t ∧ ∀ k handle d,
      (p.run t).stage? t = some (.publishing k handle d) → (p.run t).goesOnInTurn c t ms = true := by
  rw [inTurn, List.contains_iff_mem.2 ht, Bool.not_true, Bool.false_or, Bool.and_eq_true_iff] at h
  refine ⟨beq_iff_eq.1 h.1, fun k handle d hs => ?_⟩
  have hor := h.2
  rw [hs] at hor
  simpa [Stage.key?] using hor

/-- Between a call and the answer all members had a turn that could go on, if there was anything in
between. -/
theorem between_of_goesOnInTurn {mid : List Move}
    (h : p.goesOnInTurn c t (mid ++ .answerPublish t a :: suf) = true) :
    mid = [] ∨ (∃ a' rest, mid = .answerPublish t a' :: rest) ∨ ∀ u ∈ p.turnsOf c, .run u ∈ mid := by
  have hbetween : (mid ++ .answerPublish t a :: suf).takeWhile (!·.isAnswerTo t) =
      mid.takeWhile (!·.isAnswerTo t) := by
    clear h
    induction mid with
    | nil => simp [Move.isAnswerTo]
    | cons m mid ih => simp only [List.cons_append, List.takeWhile_cons, ih]
  have hany : (mid ++ Move.answerPublish t a :: suf).any (·.isAnswerTo t) = true :=
    List.any_eq_true.2 ⟨_, List.mem_append_right _ List.mem_cons_self, beq_self_eq_true t⟩
  unfold goesOnInTurn at h
  dsimp only at h
  rw [hbetween, hany, Bool.not_true, Bool.false_or, Bool.or_eq_true] at h
  rcases h with hnil | hall
  · cases mid with
    | nil => exact .inl rfl
    | cons m mid =>
      by_cases hm : m.isAnswerTo t = true
      · obtain ⟨a', rfl⟩ := Move.exists_of_isAnswerTo hm
        exact .inr (.inl ⟨a', mid, rfl⟩)
      · simp [hm] at hnil
  · refine .inr (.inr fun u hu => ?_)
    obtain ⟨m, hm, hturn⟩ := List.any_eq_true.1 (List.all_eq_true.1 hall u hu)
    rw [← Move.eq_of_isTurnOf hturn]
    exact (List.takeWhile_sublist _).subset hm

/-- Whoever is fresh can go on. -/
theorem Begun.turn_of_fresh (h : p.Begun id c first o ds limit b) (hu : p.phaseOf c u = .fresh) :
    u ∈ p.turnsOf c := by
  refine (h.sound.turns u).2 ?_
  show (p.phaseOf c u).CanGoOn
  rw [hu]
  trivial

/-- **Whoever is fresh has been so.** -/
theorem Begun.fresh_of_moves (h : p.Begun id c first o ds limit b)
    (hu : (p.moves ms).phaseOf c u = .fresh) : p.phaseOf c u = .fresh := by
  induction ms generalizing p b with
  | nil => exact hu
  | cons m ms ih =>
    obtain ⟨b', h', hstep⟩ := h.move m
    exact hstep.fresh_of_fresh (ih h' hu)

/-- **Whoever has had a turn** is not fresh any more. -/
theorem Begun.not_fresh (h : p.Begun id c first o ds limit b) (hrun : .run u ∈ ms) :
    (p.moves ms).phaseOf c u ≠ .fresh := by
  obtain ⟨pre, suf, rfl⟩ := List.append_of_mem hrun
  intro hu
  rw [moves_append] at hu
  obtain ⟨b₁, h₁⟩ := h.moves pre
  obtain ⟨b₂, h₂, hstep⟩ := h₁.move (.run u)
  have hafter := h₂.fresh_of_moves hu
  exact hstep.not_fresh (h₁.turn_of_fresh (hstep.fresh_of_fresh hafter)) hafter

/-- A publish that was answered waits for no answer afterwards. -/
theorem Sound.not_publishing_of_answered (h : p.Sound) {k k' : Key} {handle handle' : Handle}
    {d' : Definition} (hs : p.stage? t = some (.publishing k handle d)) (a : Answer)
    (ms : List Move) :
    ((p.answerPublish t a).moves ms).stage? t ≠ some (.publishing k' handle' d') := by
  intro hs'
  obtain ⟨out, -, hended⟩ := h.ended_answerPublish hs a
  have hanswered : (p.answerPublish t a).Sound := h.move (.answerPublish t a)
  have hstays := hanswered.outcome?_moves ms (outcome?_eq_some_iff.2 hended)
  rw [outcome?_eq_some_iff, hs'] at hstays
  cases hstays

/-- A publish that has the registry called had a turn in which it was. -/
theorem Sound.turn_of_publishing (h : p.Sound) (hkin : p.Kin) (ha : p.Awaits t o d) {k : Key}
    {handle : Handle} {d' : Definition}
    (hs : (p.moves ms).stage? t = some (.publishing k handle d')) :
    ∃ before mid, ms = before ++ .run t :: mid ∧ t ∈ (p.moves before).ready ∧
      ∃ k handle d', ((p.moves before).run t).stage? t = some (.publishing k handle d') := by
  rcases h.awaits_moves hkin ha ms with ⟨s, hs', hwaits⟩ | ⟨before, mid, rfl, -, hbegins⟩
  · cases hs.symm.trans hs'
    exact hwaits.elim
  · refine ⟨before, mid, rfl, ?_⟩
    cases hbegins with
    | refused failure _ hended =>
      have hbegun : ((p.moves before).run t).Sound := (h.moves before).move (.run t)
      have hstays := hbegun.outcome?_moves mid (outcome?_eq_some_iff.2 hended)
      rw [moves_append] at hs
      rw [outcome?_eq_some_iff] at hstays
      cases hs.symm.trans hstays
    | called k r handle d'' _ _ hstage _ hjournal =>
      refine ⟨?_, k, handle, d'', hstage⟩
      by_contra hidle
      rw [run_of_not_ready hidle] at hjournal
      exact List.cons_ne_self _ _ hjournal.symm

/-- **When a member is answered** the batch is settled. What it was when the member had just had the
registry called is given. -/
theorem Begun.settled_of_answer (h : p.Begun id c first o ds limit b₀)
    (hawaits : ∀ i d, ds[i]? = some d → p.Awaits (first + i) o d)
    (hfifo : p.firstInFirstOut c (pre ++ .answerPublish t a :: suf) = true)
    (ht : (p.moves pre).phaseOf c t = .calling)
    (hlast : ∀ before, pre = before ++ [.run t] → t ∈ (p.moves before).turnsOf c →
      ((p.moves pre).roster c b).Settled) :
    ((p.moves pre).roster c b).Settled := by
  obtain ⟨b₁, h₁⟩ := h.moves pre
  obtain ⟨i, d, rfl, hd⟩ := h₁.exists_member (t := t) (by simp [ht])
  obtain ⟨-, k, handle, d', hs⟩ := publishing_of_phaseOf ht
  obtain ⟨before, mid, rfl, hready, k', handle', d'', hcalled⟩ :=
    h.orderly.sound.turn_of_publishing h.orderly.kin (hawaits i d hd) hs
  obtain ⟨b₂, h₂⟩ := h.moves before
  obtain ⟨b₃, h₃, -⟩ := h₂.move (.run (first + i))
  have hturn : first + i ∈ (p.moves before).turnsOf c :=
    mem_turnsOf_iff.2 ⟨hready, (h₂.member i d hd).1⟩
  rw [List.append_assoc, List.cons_append] at hfifo
  obtain ⟨-, hgoesOn⟩ := inTurn_run (inTurn_of_firstInFirstOut hfifo) hturn
  rw [moves_append] at hs ⊢
  rcases between_of_goesOnInTurn (hgoesOn _ _ _ hcalled) with rfl | ⟨a', rest, rfl⟩ | hall
  · rw [← moves_append]
    exact hlast before rfl hturn
  · exact absurd hs (h₃.orderly.sound.not_publishing_of_answered hcalled a' rest)
  · -- whoever was fresh could go on then, and has had a turn since
    refine .inr fun u hu => ?_
    exact h₃.not_fresh (hall u (h₃.turn_of_fresh (h₃.fresh_of_moves hu))) hu

/-- **The members come in the order of their definitions** when they have their turns first in, first
out. -/
theorem Begun.inOrder (h : p.Begun id c first o ds limit b₀)
    (hstart : (p.roster c b₀).InOrder (List.range' first ds.length) (signing id first ds))
    (hawaits : ∀ i d, ds[i]? = some d → p.Awaits (first + i) o d)
    (hfifo : p.firstInFirstOut c (pre ++ suf) = true) :
    ∃ b, (p.moves pre).Begun id c first o ds limit b ∧
      ((p.moves pre).roster c b).InOrder (List.range' first ds.length) (signing id first ds) ∧
      ∀ before t, pre = before ++ [.run t] → t ∈ (p.moves before).turnsOf c →
        (p.moves pre).phaseOf c t = .calling → ((p.moves pre).roster c b).Settled := by
  induction pre using List.reverseRecOn generalizing suf with
  | nil => exact ⟨b₀, h, hstart, fun before t he => by simp at he⟩
  | append_singleton pre m ih =>
    rw [List.append_assoc, List.singleton_append] at hfifo
    obtain ⟨b, hb, horder, hlast⟩ := ih hfifo
    obtain ⟨b', hb', hstep⟩ := hb.move m
    have hturn := inTurn_of_firstInFirstOut hfifo
    rw [moves_concat]
    refine ⟨b', hb', horder.step hb.sound hstep ?_ ?_, ?_⟩
    · rintro t ht rfl
      exact (inTurn_run hturn ht).1
    · rintro t a rfl ht
      exact h.settled_of_answer hawaits hfifo ht fun before he hmem => hlast before t he hmem ht
    · intro before t he hmem ht
      obtain ⟨rfl, hm⟩ := List.append_inj' he rfl
      cases hm
      exact horder.settled hb.sound hstep (inTurn_run hturn hmem).1 ht

/-! ## Every run -/

/-- **A batch keeps to its limit** of `n` publishes at once in a run. Its members are the tasks from
`first` on. -/
structure KeepsToLimit (p : Publisher) (id : String) (c first n : Nat) (o : RegistryOptions)
    (ds : List Definition) (ms : List Move) : Prop where
  /-- Every permit is left, or a member has it that has not ended: however a member ends, it gives its
  permit back. -/
  permits : ∀ b, (p.moves ms).stage? c = some (.gathering b) →
    ∃ left, b.permits = some left ∧ left + ((p.moves ms).holding c).length = n
  /-- There are at most three turns and answers for each member. -/
  few : dueMoves c p ms ≤ 3 * ds.length
  /-- When no member has a turn or waits for an answer, all definitions were attempted: each one was
  refused in a turn of its own, or had the registry called and was answered. -/
  attempted : (p.moves ms).turnsOf c = [] → (p.moves ms).inProgress c = [] →
    ∀ i d, ds[i]? = some d → ∃ out, (p.moves ms).outcome? (first + i) = some out ∧
      Course p (first + i) o d ms out
  /-- When the members have their turns first in, first out, the registry is called in the order of the
  definitions. -/
  order : p.firstInFirstOut c ms = true → ((p.moves ms).callsOf c).Sublist
    ((List.range' first ds.length).zip (ds.map (·.stamp id)))

theorem Begun.keepsToLimit (h : p.Begun id c first o ds (some n) b) (hn : n ≠ 0)
    (hstart : p.roster c b = .start (List.range' first ds.length) (some n))
    (hawaits : ∀ i d, ds[i]? = some d → p.Awaits (first + i) o d) (ms : List Move) :
    p.KeepsToLimit id c first n o ds ms := by
  obtain ⟨b', h'⟩ := h.moves ms
  refine ⟨fun b₁ hb₁ => ?_, ?_, fun hturns hcalls i d hd => ?_, fun hfifo => ?_⟩
  · rcases h'.batch with hc | ⟨out, hc⟩
    · cases hb₁.symm.trans hc
      exact h'.sound.permits_add rfl (nodup_holding _ c) fun _ => mem_holding_iff
    · cases hb₁.symm.trans hc
  · obtain ⟨b₁, hle⟩ := h.dueMoves_add ms
    rw [hstart, Roster.toCome_start, List.length_range'] at hle
    omega
  · have hended := h'.ended_of_idle (by simpa using hn) hturns hcalls (first + i)
    obtain ⟨hparent, s, hs, hpublishes⟩ := h'.member i d hd
    rw [phaseOf_member hparent hs] at hended
    obtain ⟨out, rfl⟩ := hpublishes.ended hended
    have hout := outcome?_eq_some_iff.2 hs
    exact ⟨out, hout, h.orderly.sound.course h.orderly.kin (hawaits i d hd) hout⟩
  · have hrun : p.firstInFirstOut c (ms ++ []) = true := by rwa [List.append_nil]
    obtain ⟨_, -, ⟨begun, letIn, fresh, hlined⟩, -⟩ :=
      h.inOrder (hstart ▸ Roster.inOrder_start ..) hawaits hrun
    have hbegun : begun.Sublist (List.range' first ds.length) := by
      rw [hlined.members, List.append_assoc, List.append_assoc]
      exact List.sublist_append_left ..
    rw [← map_signing]
    exact hlined.calls.trans (hbegun.map _)

/-- **The limit of a batch holds.** Anything may have happened before, and anything may happen
afterwards, in any order: others may publish, close or use the registrar directly, callers may give up
on the batch, and the registry may answer late, refuse or break off. A limit of nothing counts as
one. At all times no more members of a batch have the registry called than its limit says. A batch of
some definitions for a registry with a name, from its first turn on, gives every permit back and
attempts every definition; and it has the registry called in the order of the definitions when its
members have their turns first in, first out. Any other batch is refused in its first turn, and so is
one whose limit is beyond the number of permits that there can be. -/
theorem batch_limited (id : String) (listening : Bool) (n : Nat) (past : List Move) (p : Publisher)
    (hp : p = (fresh id listening (some n)).moves past) :
    (∀ c, (p.inProgress c).length ≤ max n 1) ∧
    ∀ c o ds, c ∈ p.ready → p.stage? c = some (.asked (.publishAll o ds)) →
      (ds ≠ [] → Text.trim o.name ≠ "" → n ≤ Batch.mostPermits → ∀ future,
        (p.run c).KeepsToLimit id c p.tasks.length (max n 1) { o with name := Text.trim o.name } ds
          future) ∧
      (ds = [] ∨ Text.trim o.name = "" ∨ Batch.mostPermits < n →
        ∃ out, BatchRefused (some n) o ds out ∧ (p.run c).outcome? c = some out) := by
  have horderly : p.Orderly := hp ▸ (orderly_fresh id listening (some n)).moves past
  have hlimit : p.limit = some n := by
    rw [hp, limit_moves]
    rfl
  have hpermits : p.limit.map (max 1) = some (max n 1) := by
    rw [hlimit, Option.map_some, Nat.max_comm]
  have hid : p.registrar.publisher = id := by
    rw [hp, (sound_fresh id listening (some n)).publisher_moves]
    rfl
  refine ⟨fun c => horderly.length_inProgress_le hpermits c, fun c o ds hready hc => ?_⟩
  rcases horderly.sound.run_publishAll_cases hready hc with
    ⟨out, hrefused, hout⟩ | ⟨hne, hname, hfew, hrun⟩
  · rw [hlimit] at hrefused
    refine ⟨fun hne hname hn => ?_, fun _ => ⟨out, hrefused, hout⟩⟩
    cases hrefused with
    | nothing hnil => exact absurd hnil hne
    | nameless _ hblank => exact absurd hblank hname
    | tooMany _ _ k hk hmany =>
      cases hk
      omega
  · refine ⟨fun _ _ _ future => ?_, fun hbad => ?_⟩
    · obtain ⟨hbegun, hstart, hawaits⟩ := horderly.begun hc hrun
      rw [hid, hpermits] at hbegun
      rw [hpermits] at hstart
      exact hbegun.keepsToLimit (by omega) hstart hawaits future
    · have hn := hfew n hlimit
      rcases hbad with hnil | hblank | hmany
      · exact absurd hnil hne
      · exact absurd hblank hname
      · omega

/-- Three definitions, the second one of a schema without a name. -/
def threeDefinitions : List Definition :=
  [{ schema := ⟨"s", "1"⟩ }, { schema := ⟨" ", "2"⟩ }, { schema := ⟨"t", "3"⟩ }]

/-- They are to be published. -/
def threeAsked : List Move := [.ask (.publishAll { name := " r" } threeDefinitions)]

/-- The first call breaks off, the one after it is refused, and the last one is let in. -/
def firstLost : List Move :=
  [.run 1, .run 2, .run 3, .answerPublish 1 (.broken "lost"), .run 2, .run 0, .run 3,
    .answerPublish 3 (.record ⟨"1", "t", none, {}⟩)]

theorem batch_limited_firstLost :
    (∀ c, (((fresh "id" true (some 0)).moves (threeAsked ++ [.run 0, .run 1])).inProgress c).length ≤
      1) ∧
    (((fresh "id" true (some 0)).moves threeAsked).run 0).firstInFirstOut 0 firstLost = true ∧
    (((((fresh "id" true (some 0)).moves threeAsked).run 0).moves firstLost).callsOf 0).Sublist
      ((List.range' 1 3).zip (threeDefinitions.map (·.stamp "id"))) ∧
    ∀ i d, threeDefinitions[i]? = some d → ∃ out,
      ((((fresh "id" true (some 0)).moves threeAsked).run 0).moves firstLost).outcome? (1 + i) =
        some out ∧
      Course (((fresh "id" true (some 0)).moves threeAsked).run 0) (1 + i)
        { name := Text.trim " r" } d firstLost out := by
  have hbefore := batch_limited "id" true 0 (threeAsked ++ [.run 0, .run 1]) _ rfl
  have hkeeps := ((batch_limited "id" true 0 threeAsked _ rfl).2 0 { name := " r" } threeDefinitions
    (by decide) rfl).1 (by simp [threeDefinitions]) (by decide +kernel) (Nat.zero_le _) firstLost
  have hfifo : (((fresh "id" true (some 0)).moves threeAsked).run 0).firstInFirstOut 0 firstLost =
      true := by decide +kernel
  exact ⟨hbefore.1, hfifo, hkeeps.order hfifo,
    hkeeps.attempted (by decide +kernel) (by decide +kernel)⟩

/-- **A limit beyond the number of permits that there can be** breaks a batch off before it has made a
task: nobody has a turn, no call is in progress, and the definition was not attempted. -/
theorem batch_limited_tooManyPermits :
    ∃ message, (((fresh "id" true (some (Batch.mostPermits + 1))).moves
        [.ask (.publishAll { name := "r" } [{ schema := ⟨"s", "1"⟩ }])]).run 0).outcome? 0 =
          some (.broken message) ∧
      (((fresh "id" true (some (Batch.mostPermits + 1))).moves
        [.ask (.publishAll { name := "r" } [{ schema := ⟨"s", "1"⟩ }])]).run 0).ready = [] ∧
      (((fresh "id" true (some (Batch.mostPermits + 1))).moves
        [.ask (.publishAll { name := "r" } [{ schema := ⟨"s", "1"⟩ }])]).run 0).journal = [] ∧
      ¬ (((fresh "id" true (some (Batch.mostPermits + 1))).moves
        [.ask (.publishAll { name := "r" } [{ schema := ⟨"s", "1"⟩ }])]).run 0).KeepsToLimit "id" 0 1
          (max (Batch.mostPermits + 1) 1) { name := Text.trim "r" } [{ schema := ⟨"s", "1"⟩ }] [] := by
  refine ⟨_, rfl, rfl, rfl, fun h => ?_⟩
  obtain ⟨out, hout, -⟩ := h.attempted rfl rfl 0 { schema := ⟨"s", "1"⟩ } rfl
  cases hout

end Publisher
end SchemaHerald
