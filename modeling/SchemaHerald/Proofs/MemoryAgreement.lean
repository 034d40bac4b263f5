import Mathlib.Data.Set.Function
import SchemaHerald.Proofs.MemoryMirror

/-!
# The registrar and the registry in memory agree

In every run of a publisher that has a registry in memory for itself, the live registrations and the
stored records correspond one to one until the registrar is released (`Agrees`), and what is stored
after that is listed among the failures of the close that released it (`Listed`). `accords_moves` says
both; calls may be held up or fail before they get to the registry, in any order.
-/
namespace SchemaHerald.LocalPublisher

open Relation Publisher

variable {l start : LocalPublisher} {c c' : Nat} {d : Drain} {m : LocalMove} {ms : List LocalMove}

/-! ## Before the release -/

/-- **The registrar and the registry agree.** -/
structure Agrees (l : LocalPublisher) : Prop where
  /-- Registry and id tell which live registration goes with which record. -/
  bijection : Set.BijOn (fun g : Registration => (g.registry, g.id))
    {g | g ∈ l.publisher.registrar.registrations}
    {place | ∃ record, l.memory.record? place.1 place.2 = some record}
  /-- The record that is stored is the one of the registration. -/
  record : ∀ g ∈ l.publisher.registrar.registrations,
    l.memory.record? g.registry g.id = some g.record
  /-- No id is stored twice. -/
  ids : l.memory.ids.Nodup
  /-- The records of a registry are strictly sorted by name. -/
  sorted : ∀ registry, ((l.memory.records registry).map (·.name)).Pairwise (· < ·)

/-- What is stored is found, and belongs to a registration that is live. -/
theorem Mirrored.live_of_stored (hmirror : l.Mirrored) (h : l.Sane) {s : StoredRecord}
    (hs : s ∈ l.memory.stored) :
    ∃ g, l.publisher.registrar.live? g.key = some g ∧ s = g.stored := by
  obtain ⟨g, hg, rfl⟩ := h.stored s hs
  exact ⟨g, (hmirror g hg).1 hs, rfl⟩

/-- What is live is stored. -/
theorem Mirrored.stored_of_live (hmirror : l.Mirrored) (h : l.Sane) {g : Registration}
    (hg : g ∈ l.publisher.registrar.registrations) :
    l.publisher.Made g ∧ g.stored ∈ l.memory.stored := by
  obtain ⟨k, hk⟩ := Registrar.mem_registrations_iff.1 hg
  have hmade := h.acquainted.live k g hk
  obtain ⟨-, rfl, -⟩ := h.owned.tidy k g hk
  exact ⟨hmade, (hmirror g hmade).2 hk⟩

theorem Mirrored.agrees (hmirror : l.Mirrored) (h : l.Sane) : l.Agrees := by
  have found : ∀ g ∈ l.publisher.registrar.registrations,
      l.memory.record? g.registry g.id = some g.record := by
    intro g hg
    rw [MemoryRegistry.record?_eq_some_iff h.nodup]
    exact ⟨(hmirror.stored_of_live h hg).2, rfl⟩
  refine ⟨⟨?_, ?_, ?_⟩, found, h.nodup, ?_⟩
  · intro g hg
    exact ⟨g.record, found g hg⟩
  · intro g hg g' hg' he
    exact h.eq_of_id (hmirror.stored_of_live h hg).1 (hmirror.stored_of_live h hg').1
      (congrArg Prod.snd he)
  · rintro ⟨registry, id⟩ ⟨record, hrecord⟩
    obtain ⟨hmem, hid⟩ := (MemoryRegistry.record?_eq_some_iff h.nodup).1 hrecord
    obtain ⟨g, hlive, hg⟩ := hmirror.live_of_stored h hmem
    cases hg
    exact ⟨g, Registrar.mem_registrations_iff.2 ⟨_, hlive⟩, Prod.ext rfl hid⟩
  · intro registry
    apply MemoryRegistry.names_records
    apply List.Nodup.map_on
    · intro s hs s' hs' hname
      obtain ⟨hs, hregistry⟩ := List.mem_filter.1 hs
      obtain ⟨hs', hregistry'⟩ := List.mem_filter.1 hs'
      obtain ⟨g, hlive, rfl⟩ := hmirror.live_of_stored h hs
      obtain ⟨g', hlive', rfl⟩ := hmirror.live_of_stored h hs'
      have hschema : g.schema = g'.schema := by
        rw [← h.name g (h.acquainted.live _ _ hlive), ← h.name g' (h.acquainted.live _ _ hlive')]
        exact hname
      have hkey : g.key = g'.key := by
        show Key.mk g.stored.registry g.schema = Key.mk g'.stored.registry g'.schema
        rw [eq_of_beq hregistry, eq_of_beq hregistry', hschema]
      rw [hkey, hlive'] at hlive
      cases hlive
      rfl
    · exact (List.Nodup.of_map _ h.nodup).filter _

/-! ## After the release -/

/-- **Whatever is stored is listed** in the outcome of a close, which is a success only if nothing
is. -/
inductive Listed (l : LocalPublisher) : Outcome → Prop
  | nothing (hnil : l.memory.stored = []) : Listed l .done
  | parts (n : Nat) (parts : List (Part Failure))
      (hparts : ∀ s ∈ l.memory.stored, ∃ g failure, l.publisher.Made g ∧ s = g.stored ∧
        ⟨g.schema, g.registry, failure⟩ ∈ parts) :
      Listed l (.failed (.partialUnpublish n parts))

/-- **A teardown that is complete** has listed what it owes. -/
theorem Owes.listed (howes : l.Owes d) (h : l.Sane) (hd : d.isComplete = true)
    (hends : ∀ m ∈ d.removals, ∀ o, m.outcome = some o → o = .done ∨ ∃ failure, o = .failed failure) :
    l.Listed d.outcome := by
  obtain ⟨hrest, hall⟩ := Bool.and_eq_true_iff.1 hd
  have hparts : ∀ s ∈ l.memory.stored, ∃ g failure, l.publisher.Made g ∧ s = g.stored ∧
      ⟨g.schema, g.registry, failure⟩ ∈ d.removals.filterMap Removal.part? := by
    intro s hs
    obtain ⟨g, hg, rfl⟩ := h.stored s hs
    rcases howes g hg hs with hmem | ⟨m, hm, rfl, hno⟩
    · rw [List.isEmpty_iff.1 hrest] at hmem
      cases hmem
    · obtain ⟨o, ho⟩ := Option.isSome_iff_exists.1 (List.all_eq_true.1 hall m hm)
      rcases hends m hm o ho with rfl | ⟨failure, rfl⟩
      · exact absurd ho hno
      · refine ⟨_, failure, hg, rfl, List.mem_filterMap.2 ⟨m, hm, ?_⟩⟩
        rw [Removal.part?, ho]
  unfold Drain.outcome Outcome.ofRemovals
  split
  · rename_i hnil
    refine .nothing (List.eq_nil_iff_forall_not_mem.2 ?_)
    intro s hs
    obtain ⟨g, failure, -, -, hmem⟩ := hparts s hs
    rw [List.isEmpty_iff.1 hnil] at hmem
    cases hmem
  · exact .parts _ _ hparts

/-! ## Runs -/

/-- **Task `c` has closed the registrar**: it was asked to, and in one of its turns the registrar, which
was open before, was closed. -/
def ClosedBy (start : LocalPublisher) (ms : List LocalMove) (c : Nat) : Prop :=
  ∃ past future, ms = past ++ .apart (.run c) :: future ∧
    (start.moves past).publisher.stage? c = some (.asked (.close .unpublishing)) ∧
    (start.moves past).publisher.registrar.closed = false ∧
    (start.moves (past ++ [.apart (.run c)])).publisher.registrar.closed = true

theorem ClosedBy.concat (h : ClosedBy start ms c) (m : LocalMove) :
    ClosedBy start (ms ++ [m]) c := by
  obtain ⟨past, future, rfl, hrest⟩ := h
  exact ⟨past, future ++ [m], by simp, hrest⟩

/-- **Where a run stands**: the registrar is open, or a task has closed it. -/
inductive Standing (start : LocalPublisher) (ms : List LocalMove) : Prop
  | isOpen (hopen : (start.moves ms).publisher.registrar.closed = false)
      (hmirror : (start.moves ms).Mirrored)
  | isClosed (c : Nat) (hby : ClosedBy start ms c) (hshut : (start.moves ms).Shutdown c)

/-- **A move that closes the registrar** is the turn of a task that was asked to. -/
theorem Sane.move_of_open (h : l.Sane) (hm : l.Allows m)
    (hopen : l.publisher.registrar.closed = false) (hmirror : l.Mirrored) :
    ((l.move m).publisher.registrar.closed = false ∧ (l.move m).Mirrored) ∨
      ∃ c, m = .apart (.run c) ∧ l.publisher.stage? c = some (.asked (.close .unpublishing)) ∧
        (l.move m).Shutdown c := by
  rcases move_cases hm h.owned with ⟨request, rfl, -, -⟩ | ⟨t, rfl⟩ | ⟨t, rfl⟩ | he | ⟨t, ha⟩
  · exact .inl ⟨hopen, hmirror.congr (fun g => (made_ask request).1) rfl fun _ => rfl⟩
  · -- giving up on a batch does not close anything
    have hregistrar : (l.publisher.abandon t).registrar = l.publisher.registrar := by
      unfold abandon
      split <;> rfl
    rcases h.open_steps hopen hmirror (abandon_steps l.publisher t) with ⟨-, hmirror', -⟩ | ⟨-, hshut⟩
    · refine .inl ⟨?_, hmirror'⟩
      show (l.publisher.abandon t).registrar.closed = false
      rw [hregistrar, hopen]
    · exfalso
      have hclosed : (l.publisher.abandon t).registrar.closed = true :=
        hshut.closed (h.effects (effects_of_steps (abandon_steps l.publisher t)))
      rw [hregistrar, hopen] at hclosed
      cases hclosed
  · rcases h.open_steps hopen hmirror (run_steps l.publisher t) with
      ⟨hopen', hmirror', -⟩ | ⟨hasked, hshut⟩
    · exact .inl ⟨hopen', hmirror'⟩
    · exact .inr ⟨t, rfl, hasked, hshut⟩
  · rw [he]
    exact .inl ⟨hopen, hmirror⟩
  · exact .inl (ha.keeps_open h hopen hmirror)

theorem Standing.move (hstands : Standing start ms) (h : (start.moves ms).Sane)
    (hm : (start.moves ms).Allows m) : Standing start (ms ++ [m]) := by
  have hmoves : start.moves (ms ++ [m]) = (start.moves ms).move m := moves_concat ..
  cases hstands with
  | isOpen hopen hmirror =>
    rcases h.move_of_open hm hopen hmirror with ⟨hopen', hmirror'⟩ | ⟨c, rfl, hasked, hshut⟩
    · exact .isOpen (hmoves ▸ hopen') (hmoves ▸ hmirror')
    · refine .isClosed c ⟨ms, [], rfl, hasked, hopen, ?_⟩ (hmoves ▸ hshut)
      rw [hmoves]
      exact hshut.closed (h.move hm)
  | isClosed c hby hshut =>
    exact .isClosed c (hby.concat m) (hmoves ▸ hshut.effects h (move_effects hm h.owned))

theorem sane_moves (h : start.Sane) (hms : start.AllowsAll ms) : (start.moves ms).Sane := by
  induction ms using List.reverseRecOn with
  | nil => exact h
  | append_singleton ms m ih =>
    obtain ⟨hms, hm⟩ := allowsAll_concat.1 hms
    rw [moves_concat]
    exact (ih hms).move hm

theorem standing_moves (base : Option String) (id : String) (listening : Bool) (limit : Option Nat)
    (hms : (fresh base id listening limit).AllowsAll ms) :
    Standing (fresh base id listening limit) ms := by
  induction ms using List.reverseRecOn with
  | nil =>
    refine .isOpen rfl ?_
    intro g hg
    obtain ⟨t, ht⟩ := hg
    simp [moves, fresh, Publisher.fresh, stage?] at ht
  | append_singleton ms m ih =>
    obtain ⟨hms, hm⟩ := allowsAll_concat.1 hms
    exact (ih hms).move (sane_moves (sane_fresh base id listening limit) hms) hm

/-- A registrar that is closed is not opened again. -/
theorem closed_moves (h : l.Sane) (hms : l.AllowsAll ms)
    (hc : l.publisher.registrar.closed = true) :
    (l.moves ms).publisher.registrar.closed = true := by
  induction ms using List.reverseRecOn with
  | nil => exact hc
  | append_singleton ms m ih =>
    obtain ⟨hms, hm⟩ := allowsAll_concat.1 hms
    have hsane := sane_moves h hms
    rw [moves_concat]
    have effects : ∀ l', ReflTransGen Effect (l.moves ms) l' →
        l'.publisher.registrar.closed = true := by
      intro l' he
      induction he with
      | refl => exact ih hms
      | tail hsteps he ihe =>
        have hsound := (hsane.effects hsteps).owned.sound
        cases he with
        | ask request hr hmade => exact ihe
        | step t q hs => exact (hsound.changes_step hs).keeps.closed ihe
        | answer t l' ha => exact (hsound.changes_reply ha.reply).keeps.closed ihe
    exact effects _ (move_effects hm hsane.owned)

/-- **Only one task closes the registrar.** -/
theorem ClosedBy.eq (h : ClosedBy start ms c) (h' : ClosedBy start ms c') (hsane : start.Sane)
    (hms : start.AllowsAll ms) : c = c' := by
  -- the one whose turn comes later would find the registrar closed
  have earlier : ∀ {past future between c}, ms = past ++ .apart (.run c) :: (between ++ future) →
      (start.moves (past ++ [.apart (.run c)])).publisher.registrar.closed = true →
      (start.moves (past ++ .apart (.run c) :: between)).publisher.registrar.closed = true := by
    intro past future between c hsplit hclosed
    have hall : start.AllowsAll ((past ++ [.apart (.run c)]) ++ (between ++ future)) := by
      rw [← List.append_cons, ← hsplit]
      exact hms
    obtain ⟨hpast, hrest⟩ := allowsAll_append.1 hall
    obtain ⟨hbetween, -⟩ := allowsAll_append.1 hrest
    rw [List.append_cons, moves_append]
    exact closed_moves (sane_moves hsane hpast) hbetween hclosed
  obtain ⟨past, future, hsplit, -, hopen, hclosed⟩ := h
  obtain ⟨past', future', hsplit', -, hopen', hclosed'⟩ := h'
  have hsame := hsplit.symm.trans hsplit'
  rcases List.append_eq_append_iff.1 hsame with ⟨between, hpast, hfuture⟩ | ⟨between, hpast, hfuture⟩
  · cases between with
    | nil =>
      cases hfuture
      rfl
    | cons m between =>
      cases hfuture
      rw [hpast, earlier hsplit hclosed] at hopen'
      cases hopen'
  · cases between with
    | nil =>
      cases hfuture
      rfl
    | cons m between =>
      cases hfuture
      rw [hpast, earlier hsplit' hclosed'] at hopen
      cases hopen

/-- Nothing was released yet: the registrar is open, or the task that closed it has not ended. -/
def Unreleased (l : LocalPublisher) : Prop :=
  l.publisher.registrar.closed = false ∨
    ∃ c s, l.publisher.stage? c = some s ∧ s.IsClosing

/-- **What a run comes to.** -/
structure Accords (start : LocalPublisher) (ms : List LocalMove) : Prop where
  /-- Before the release the registrar and the registry agree. -/
  before : (start.moves ms).Unreleased → (start.moves ms).Agrees
  /-- After the release the task that closed the registrar has ended. -/
  released : ¬ (start.moves ms).Unreleased →
    ∃ c outcome, ClosedBy start ms c ∧ (start.moves ms).publisher.outcome? c = some outcome
  /-- When that task has ended, whatever is stored is listed in its outcome. -/
  after : ∀ c outcome, ClosedBy start ms c →
    (start.moves ms).publisher.outcome? c = some outcome → (start.moves ms).Listed outcome

/-- **The registrar and the registry in memory agree** in every run. -/
theorem accords_moves (base : Option String) (id : String) (listening : Bool) (limit : Option Nat)
    (ms : List LocalMove) (hms : (fresh base id listening limit).AllowsAll ms) :
    Accords (fresh base id listening limit) ms := by
  have hfresh := sane_fresh base id listening limit
  have h := sane_moves hfresh hms
  cases standing_moves base id listening limit hms with
  | isOpen hopen hmirror =>
    refine ⟨fun _ => hmirror.agrees h, fun hno => absurd (.inl hopen) hno, ?_⟩
    rintro c outcome ⟨past, future, rfl, -, -, hclosed⟩ -
    rw [List.append_cons] at hms hopen
    obtain ⟨hpast, hfuture⟩ := allowsAll_append.1 hms
    rw [moves_append, closed_moves (sane_moves hfresh hpast) hfuture hclosed] at hopen
    cases hopen
  | isClosed c hby hshut =>
    have ended : ∀ {c' outcome}, ClosedBy (fresh base id listening limit) ms c' →
        ((fresh base id listening limit).moves ms).publisher.outcome? c' = some outcome →
        ((fresh base id listening limit).moves ms).publisher.stage? c = some (.ended outcome) := by
      intro c' outcome hby' hout
      rw [hby.eq hby' hfresh hms]
      exact outcome?_eq_some_iff.1 hout
    cases hshut with
    | waits hc hsole hmirror =>
      refine ⟨fun _ => hmirror.agrees h, fun hno => absurd (.inr ⟨c, _, hc, trivial⟩) hno, ?_⟩
      intro c' outcome hby' hout
      have hended := ended hby' hout
      rw [hc] at hended
      cases hended
    | takesBack d hc hsole hmirror howes =>
      refine ⟨fun _ => hmirror.agrees h, fun hno => absurd (.inr ⟨c, _, hc, trivial⟩) hno, ?_⟩
      intro c' outcome hby' hout
      have hended := ended hby' hout
      rw [hc] at hended
      cases hended
    | isOver d hc hsole hd hends hbare howes =>
      refine ⟨?_, fun _ => ⟨c, _, hby, outcome?_eq_some_iff.2 hc⟩, ?_⟩
      · rintro (hopen | ⟨c', s, hs, hclosing⟩)
        · rw [hbare.closed] at hopen
          cases hopen
        · rw [hsole c' s hs hclosing, hc] at hs
          cases hs
          exact hclosing.elim
      · intro c' outcome hby' hout
        have hended := ended hby' hout
        rw [hc] at hended
        cases hended
        exact howes.listed h hd hends

/-- A schema is published, and the unpublish of the close that follows does not get to the registry. -/
def closedInVain : List LocalMove :=
  [.apart (.ask (.publish { name := "r" } { schema := ⟨"s", "1"⟩ })), .apart (.run 0), .call 0,
    .apart (.ask (.close .unpublishing)), .apart (.run 1), .apart (.run 1),
    .apart (.answerUnpublish 2 (.error { text := "gone" }))]

theorem accords_closedInVain :
    (fresh none "id" true none).AllowsAll closedInVain ∧
      ((fresh none "id" true none).moves closedInVain).memory.stored.length = 1 ∧
      Accords (fresh none "id" true none) closedInVain := by
  have hms : (fresh none "id" true none).AllowsAll closedInVain :=
    ⟨rfl, rfl, trivial, rfl, rfl, rfl, rfl, trivial⟩
  exact ⟨hms, by decide +kernel, accords_moves none "id" true none closedInVain hms⟩

end SchemaHerald.LocalPublisher
