import SchemaHerald.Proofs.CompleteTeardown

/-!
# What holds when a close returns

Any number of callers may close. The one whose turn comes first finds the registrar open and tears it
down; every other one finds it closed and returns in its first turn (`Owned.run_closeAgain`), whether
the teardown is over or not. A registrar that is closed was closed by the turn of such a first one
(`exists_closesAt`). So a close that has returned tells that nothing is left if it is that one, or if
that one has returned too (`returned_moves`), and otherwise it tells nothing (`live_secondReturns`).
-/
namespace SchemaHerald.Publisher

open Relation

variable {p q start : Publisher} {t c : Nat} {ms past future : List Move}

/-- Nothing is live, nobody holds a reservation, and there are no handles. -/
structure Emptied (p : Publisher) : Prop where
  live : p.registrar.registrations = []
  reserved : p.registrar.inFlight = 0 ∧ p.flights = [] ∧ p.held = []
  handles : p.registrar.registryNames = []

/-- **A close has its first turn** after the moves `before`, and finds the registrar closed or not. -/
structure ClosesAt (start : Publisher) (before : List Move) (c : Nat) (closed : Bool) : Prop where
  ready : c ∈ (start.moves before).ready
  asked : (start.moves before).stage? c = some (.asked (.close .unpublishing))
  found : (start.moves before).registrar.closed = closed

/-! ## Who closes the registrar -/

/-- No answer closes the registrar. -/
theorem Sound.closed_reply (h : p.Sound) (hs : Reply t p q) :
    q.registrar.closed = p.registrar.closed := by
  have told : ∀ {p' : Publisher} {s : Stage} (o : Outcome), p'.tasks = p.tasks →
      p.stage? t = some s → (p'.finish t o).registrar.closed = p'.registrar.closed := by
    intro p' s o htasks ht
    have hself : p'.parent? t ≠ some t := by
      rw [parent?_congr htasks]
      exact h.parents.ne_self _
    rcases registrar_finish hself ((stage?_congr htasks t).trans ht) o with
      hr | ⟨_, _, -, -, -, hr, -⟩
    · rw [hr]
    · rw [hr]
      rfl
  cases hs with
  | commit k handle d record ht =>
    rw [told _ (by simp) ht, registrar_withRegistered]
    rfl
  | lose k handle d outcome ht ho =>
    rw [told _ (by simp) ht, registrar_wakeIdle]
    rfl
  | remove g ht =>
    rw [told _ (by simp) ht, registrar_withdraw, registrar_withRegistrar,
      Registrar.closed_unregister]
  | keep g cause ht => exact told _ rfl ht
  | tried s outcome ht hs ho => exact told _ rfl ht

/-- **In the turn of a task** the registrar stays open, or the task was asked to close. -/
theorem Owned.close_steps (h : p.Owned) (hs : ReflTransGen (Step t) p q)
    (hopen : p.registrar.closed = false) :
    q.registrar.closed = false ∨ p.stage? t = some (.asked (.close .unpublishing)) := by
  induction hs with
  | refl => exact .inl hopen
  | @tail q q' hsteps hstep ih =>
    rcases ih with hopen' | hasked
    · rcases (h.steps hsteps).close_step hstep hopen' with hstill | ⟨hasked, -, -⟩
      · exact .inl hstill
      · right
        -- nothing that the task did before in this turn can have made it a close
        clear hstep hopen'
        induction hsteps with
        | refl => exact hasked
        | tail hsteps hstep ih =>
          exact ih ((h.steps hsteps).sound.asked_close_step hstep hasked)
    · exact .inr hasked

/-- **A move that closes the registrar** is the first turn of a close. -/
theorem Owned.closes_move (h : p.Owned) {m : Move} (hm : m.isOwn = true)
    (hopen : p.registrar.closed = false) (hclosed : (p.move m).registrar.closed = true) :
    ∃ c, m = .run c ∧ c ∈ p.ready ∧ p.stage? c = some (.asked (.close .unpublishing)) := by
  have unclosed : ∀ {r : Registrar}, r.closed = false → r.closed = true → False := by
    intro r hfalse htrue
    rw [hfalse] at htrue
    cases htrue
  have reply : ∀ {t q}, q = p ∨ Reply t p q → q.registrar.closed = false := by
    rintro t q (rfl | hs)
    · exact hopen
    · rw [h.sound.closed_reply hs, hopen]
  cases m with
  | ask request => exact (unclosed hopen hclosed).elim
  | abandon t =>
    have hsame : (p.abandon t).registrar = p.registrar := by
      unfold abandon
      split <;> rfl
    exact (unclosed (hsame ▸ hopen) hclosed).elim
  | run t =>
    by_cases hready : t ∈ p.ready
    · rcases h.close_steps (run_steps p t) hopen with hstill | hasked
      · exact (unclosed hstill hclosed).elim
      · exact ⟨t, rfl, hready, hasked⟩
    · rw [Publisher.move, run_of_not_ready hready] at hclosed
      exact (unclosed hopen hclosed).elim
  | answerPublish t answer =>
    exact (unclosed (reply (answerPublish_reply p t answer)) hclosed).elim
  | answerUnpublish t answer =>
    exact (unclosed (reply (answerUnpublish_reply p t answer)) hclosed).elim
  | reserve | drop | register | unregister | newHandle | handleFor => cases hm

/-- **A registrar that is closed** was closed by a close that found it open. -/
theorem exists_closesAt (id : String) (listening : Bool) (limit : Option Nat)
    (hms : ∀ m ∈ ms, m.isOwn = true)
    (hclosed : ((fresh id listening limit).moves ms).registrar.closed = true) :
    ∃ first later c, ms = first ++ .run c :: later ∧
      ClosesAt (fresh id listening limit) first c false := by
  induction ms using List.reverseRecOn with
  | nil => cases hclosed
  | append_singleton ms m ih =>
    have hms' : ∀ m ∈ ms, m.isOwn = true := fun m' hm' => hms m' (List.mem_append_left _ hm')
    cases hc : ((fresh id listening limit).moves ms).registrar.closed with
    | true =>
      obtain ⟨first, later, c, rfl, hfirst⟩ := ih hms' hc
      exact ⟨first, later ++ [m], c, by simp, hfirst⟩
    | false =>
      rw [moves_concat] at hclosed
      obtain ⟨c, rfl, hready, hasked⟩ :=
        (owned_moves id listening limit hms').closes_move (hms m (by simp)) hc hclosed
      exact ⟨ms, [], c, rfl, ⟨hready, hasked, hc⟩⟩

/-! ## Closes that find the registrar closed -/

/-- **Closing again** ends the task in its first turn, and nothing else happens. -/
theorem Owned.run_closeAgain (h : p.Owned) (hready : c ∈ p.ready)
    (hc : p.stage? c = some (.asked (.close .unpublishing))) (hclosed : p.registrar.closed = true) :
    p.run c = Publisher.setStage { p with ready := p.ready.erase c } c (.ended .done) := by
  obtain ⟨parent, htask⟩ := stage?_eq_some_iff.1 hc
  have horphan : p.parent? c = none :=
    h.kin.orphan h.sound.parents hc id (by simp) (by simp)
  have hnone : parent = none := by rwa [parent?, htask] at horphan
  simp only [Publisher.run, List.contains_iff_mem.2 hready, ite_true, htask, begin, beginClose,
    hclosed, finish, hnone, Option.bind_some]

/-! ## Closes that have returned -/

/-- Nothing is left once the close that found the registrar open has returned. -/
theorem ClosesAt.emptied {id : String} {listening : Bool} {limit : Option Nat} {o : Outcome}
    (h : ClosesAt (fresh id listening limit) past c false)
    (hms : ∀ m ∈ past ++ .run c :: future, m.isOwn = true)
    (hout : ((fresh id listening limit).moves (past ++ .run c :: future)).outcome? c = some o) :
    ((fresh id listening limit).moves (past ++ .run c :: future)).Emptied := by
  have howned := owned_moves id listening limit hms
  have hbare : ((fresh id listening limit).moves (past ++ .run c :: future)).registrar.Bare := by
    cases closing_moves id listening limit hms h.ready h.asked h.found with
    | waits hwait hsole hledger =>
      rw [outcome?_eq_some_iff, hwait] at hout
      cases hout
    | takesBack before after hsplit hlen h0 hledger htd hfinal => exact (htd.ended hout).2
  refine ⟨?_, ⟨hbare.idle, howned.claimed.eq_nil hbare.idle, howned.held⟩, ?_⟩
  · rw [Registrar.registrations_eq_nil_iff]
    intro k
    rw [Registrar.live?, hbare.slots]
    rfl
  · rw [Registrar.registryNames, hbare.handles]
    rfl

/-- **What a close tells that has returned**: its task is `c`, its first turn came after the moves
`before`, and it returned `o`. -/
inductive Returned (start : Publisher) (before ms : List Move) (c : Nat) (o : Outcome) : Prop
  /-- It found the registrar open: nothing is left. -/
  | first (h : ClosesAt start before c false) (hempty : (start.moves ms).Emptied)
  /-- It found the registrar closed: it returned in that turn and did nothing else. Another close had
  found the registrar open before, and nothing is left if that one has returned as well. -/
  | later (h : ClosesAt start before c true) (ho : o = .done)
      (hrun : start.moves (before ++ [.run c]) = Publisher.setStage { start.moves before with
        ready := (start.moves before).ready.erase c } c (.ended .done))
      (hother : ∃ earlier between c', before = earlier ++ .run c' :: between ∧ c' ≠ c ∧
        ClosesAt start earlier c' false ∧
        ∀ o', (start.moves ms).outcome? c' = some o' → (start.moves ms).Emptied)

/-- **When a close returns** that found the registrar open, nothing is live or reserved and there are no
handles; and so it is when any close returns after that one. A publisher is used by its own callers
only, any number of which may close, and anything else may happen in between. -/
theorem returned_moves (id : String) (listening : Bool) (limit : Option Nat)
    (past future : List Move) (c : Nat) (o : Outcome) (hms : ∀ m ∈ past ++ future, m.isOwn = true)
    (hask : ((fresh id listening limit).moves past).stage? c =
      some (.asked (.close .unpublishing)))
    (hout : ((fresh id listening limit).moves (past ++ future)).outcome? c = some o) :
    ∃ before after, past ++ future = before ++ .run c :: after ∧ past.length ≤ before.length ∧
      Returned (fresh id listening limit) before (past ++ future) c o := by
  have hpast : ((fresh id listening limit).moves past).Sound :=
    (sound_fresh id listening limit).moves past
  rw [outcome?_eq_some_iff, moves_append] at hout
  obtain ⟨before, after, rfl, hready, hask'⟩ := hpast.first_turn hask fun hidle => by
    rw [hidle] at hout
    cases hout
  rw [← moves_append] at hready hask' hout
  have hsplit : past ++ (before ++ .run c :: after) = (past ++ before) ++ .run c :: after := by simp
  rw [hsplit] at hms hout ⊢
  refine ⟨past ++ before, after, rfl, by simp, ?_⟩
  cases hfound : ((fresh id listening limit).moves (past ++ before)).registrar.closed with
  | false =>
    have hcloses : ClosesAt (fresh id listening limit) (past ++ before) c false :=
      ⟨hready, hask', hfound⟩
    exact .first hcloses (hcloses.emptied hms (outcome?_eq_some_iff.2 hout))
  | true =>
    have hbefore : ∀ m ∈ past ++ before, m.isOwn = true := fun m hm =>
      hms m (List.mem_append_left _ hm)
    have hrun := (owned_moves id listening limit hbefore).run_closeAgain hready hask' hfound
    have hmoves : (fresh id listening limit).moves ((past ++ before) ++ [.run c]) =
        ((fresh id listening limit).moves (past ++ before)).run c := moves_concat ..
    refine .later ⟨hready, hask', hfound⟩ ?_ (by rw [hmoves, hrun]) ?_
    · -- the outcome of the first turn is final
      have hdone : ((fresh id listening limit).moves ((past ++ before) ++ [.run c])).outcome? c =
          some .done := by
        rw [hmoves, hrun, outcome?_eq_some_iff]
        exact stage?_setStage_self hask'
      have hsound : ((fresh id listening limit).moves ((past ++ before) ++ [.run c])).Sound :=
        (sound_fresh id listening limit).moves _
      have hfinal := hsound.outcome?_moves after hdone
      rw [← moves_append, List.append_assoc, List.singleton_append, outcome?_eq_some_iff,
        hout] at hfinal
      exact Stage.ended.inj (Option.some.inj hfinal)
    · obtain ⟨first, later, c', hbefore', hfirst⟩ :=
        exists_closesAt id listening limit hbefore hfound
      have hne : c' ≠ c := by
        rintro rfl
        -- a close that has begun is not asked for any more
        rw [hbefore'] at hask' hbefore
        cases closing_moves id listening limit hbefore hfirst.ready hfirst.asked hfirst.found with
        | waits hwait => cases hask'.symm.trans hwait
        | takesBack _ _ _ _ _ _ htd =>
          cases htd with
          | underWay d hc => cases hask'.symm.trans hc
          | hasEnded d hc => cases hask'.symm.trans hc
      have hwhole : (past ++ before) ++ .run c :: after =
          first ++ .run c' :: (later ++ .run c :: after) := by
        rw [hbefore']
        simp
      refine ⟨first, later, c', hbefore', hne, hfirst, fun o' hout' => ?_⟩
      rw [hwhole] at hms hout' ⊢
      exact hfirst.emptied hms hout'

/-- One schema is live, another one is being published, and two callers ask to close. -/
def twoCloses : List Move :=
  [.ask (.publish { name := "r" } { schema := ⟨"s", "1"⟩ }), .run 0,
    .answerPublish 0 (.record ⟨"1", "s", none, {}⟩),
    .ask (.publish { name := "r" } { schema := ⟨"t", "2"⟩ }), .run 1,
    .ask (.close .unpublishing), .ask (.close .unpublishing)]

/-- The first of them waits for the publish, and the second one returns. -/
def secondReturns : List Move := [.run 2, .run 3]

/-- The publish is refused, and the first one takes back what is live. -/
def firstReturns : List Move :=
  secondReturns ++ [.answerPublish 1 (.refused ⟨"no", []⟩), .run 2, .run 2,
    .answerUnpublish 4 (.ok ())]

theorem returned_twoCloses :
    ∃ o, ((fresh "id" true none).moves (twoCloses ++ firstReturns)).outcome? 2 = some o ∧
      ∃ before after, twoCloses ++ firstReturns = before ++ .run 2 :: after ∧
        twoCloses.length ≤ before.length ∧
        Returned (fresh "id" true none) before (twoCloses ++ firstReturns) 2 o := by
  have hask : ((fresh "id" true none).moves twoCloses).stage? 2 =
      some (.asked (.close .unpublishing)) := by rfl
  obtain ⟨o, hout⟩ : ∃ o,
      ((fresh "id" true none).moves (twoCloses ++ firstReturns)).outcome? 2 = some o :=
    Option.isSome_iff_exists.1 (by decide +kernel)
  exact ⟨o, hout, returned_moves "id" true none twoCloses firstReturns 2 o (by decide) hask hout⟩

/-- **A close that comes second** returns while a schema is live, another one is being published, and
their registry has its handle. -/
theorem live_secondReturns :
    (∀ m ∈ twoCloses ++ secondReturns, m.isOwn = true) ∧
      ((fresh "id" true none).moves twoCloses).stage? 3 = some (.asked (.close .unpublishing)) ∧
      ((fresh "id" true none).moves (twoCloses ++ secondReturns)).outcome? 3 = some .done ∧
      ((fresh "id" true none).moves (twoCloses ++ secondReturns)).registrar.registrations.map
        Registration.key = [⟨"r", "s"⟩] ∧
      ((fresh "id" true none).moves (twoCloses ++ secondReturns)).flights = [⟨"r", "t"⟩] ∧
      ((fresh "id" true none).moves (twoCloses ++ secondReturns)).registrar.registryNames = ["r"] ∧
      ¬ ((fresh "id" true none).moves (twoCloses ++ secondReturns)).Emptied := by
  have hlive : ((fresh "id" true none).moves
      (twoCloses ++ secondReturns)).registrar.registrations.map Registration.key = [⟨"r", "s"⟩] := by
    decide +kernel
  refine ⟨by decide, by rfl, by rfl, hlive, by decide +kernel, by decide +kernel, fun h => ?_⟩
  rw [h.live] at hlive
  cases hlive

end SchemaHerald.Publisher
