import SchemaHerald.Proofs.LocalRuns

/-!
# What is stored and what is live

Until the registrar is released, what the registry in memory stores is what is live (`Mirrored`). A
teardown takes its snapshot of that, and what is stored from then on is what it has not taken back
yet (`Owes`). `Shutdown` says where the close stands and which of the two holds there; no effect stops
it (`Shutdown.effects`), and an open registrar stays open until a task that was asked to close has a
turn (`Sane.open_steps`).
-/
namespace SchemaHerald.LocalPublisher

open Relation Publisher

variable {l l' : LocalPublisher} {t u c : Nat} {g : Registration} {d : Drain} {o : Outcome}

/-- **What is stored is what is live**, among all that was made. -/
def Mirrored (l : LocalPublisher) : Prop :=
  ∀ g, l.publisher.Made g →
    (g.stored ∈ l.memory.stored ↔ l.publisher.registrar.live? g.key = some g)

/-- **What is stored is still to be taken back**, or the teardown has not succeeded with it. -/
def Owes (l : LocalPublisher) (d : Drain) : Prop :=
  ∀ g, l.publisher.Made g → g.stored ∈ l.memory.stored →
    g ∈ d.rest ∨ ∃ m ∈ d.removals, m.registration = g ∧ m.outcome ≠ some .done

/-! ## What is live and what is stored -/

theorem Mirrored.congr (h : l.Mirrored) (hmade : ∀ g, l'.publisher.Made g → l.publisher.Made g)
    (hstored : l'.memory.stored = l.memory.stored)
    (hlive : ∀ k, l'.publisher.registrar.live? k = l.publisher.registrar.live? k) :
    l'.Mirrored := by
  intro g hg
  rw [hstored, hlive]
  exact h g (hmade g hg)

/-- A registration that was made is held when it is live. -/
theorem Sane.holds_iff (h : l.Sane) (hg : l.publisher.Made g) :
    l.publisher.registrar.holds g = true ↔ l.publisher.registrar.live? g.key = some g := by
  rw [Registrar.holds_iff]
  constructor
  · rintro ⟨g', hg', halike⟩
    have hid : g'.id = g.id := by
      simp only [Registration.alike, Bool.and_eq_true, beq_iff_eq] at halike
      exact halike.2
    rw [h.eq_of_id (h.acquainted.live _ _ hg') hg hid] at hg'
    exact hg'
  · intro hlive
    exact ⟨g, hlive, by simp [Registration.alike]⟩

/-- **Taking a registration back** takes it away on both sides. -/
theorem Mirrored.without (hmirror : l.Mirrored) (h : l.Sane) (hg : l.publisher.Made g)
    (hmade : ∀ g, l'.publisher.Made g → l.publisher.Made g)
    (hmemory : l'.memory = l.memory.without g)
    (hlive : ∀ k, l'.publisher.registrar.live? k =
      (l.publisher.registrar.unregister g).live? k) : l'.Mirrored := by
  intro g' hg'
  have hg₀ := hmade g' hg'
  have hholds := h.holds_iff hg
  rw [hmemory, MemoryRegistry.mem_without, hlive, Registrar.live?_unregister, hmirror g' hg₀]
  by_cases hsame : g' = g
  · subst hsame
    constructor
    · rintro ⟨-, hnot⟩
      exact absurd ⟨rfl, rfl⟩ hnot
    · intro hlive'
      split at hlive'
      · cases hlive'
      · rename_i hnot
        exact absurd ⟨rfl, hholds.2 hlive'⟩ hnot
  · -- another registration has another id, so that its record is not the one taken away
    have hid : g'.id ≠ g.id := fun he => hsame (h.eq_of_id hg₀ hg he)
    constructor
    · rintro ⟨hlive', -⟩
      rw [if_neg, hlive']
      rintro ⟨hkey, hother⟩
      rw [hkey, hholds.1 hother] at hlive'
      exact hsame (Option.some.inj hlive').symm
    · intro hlive'
      split at hlive'
      · cases hlive'
      · exact ⟨hlive', fun hboth => hid hboth.2⟩

/-- **A record that is stored** comes with a registration that is live. -/
theorem Mirrored.committed {k : Key} {handle : Handle} {d : Definition} (hmirror : l.Mirrored)
    (h : l.Sane) (ht : l.publisher.stage? t = some (.publishing k handle d)) :
    (l.committed t k handle d).Mirrored := by
  have hregistrar : (l.committed t k handle d).publisher.registrar =
      (l.publisher.registrar.register k (l.memory.recordFor handle d) handle
        l.publisher.listening).2 := by
    refine (h.owned.sound.registrar_finish_publishing ht (by simp) _).trans ?_
    rw [registrar_withRegistered]
  have hkey : (l.registered k handle d).key = k := by
    obtain ⟨-, -, hh⟩ := h.owned.sound.fits t _ ht
    exact congrArg (Key.mk · k.schema) (h.owned.sound.named _ _ hh)
  intro g hg
  show g.stored ∈ l.memory.stored ++ [(l.registered k handle d).stored] ↔ _
  rw [hregistrar, Registrar.live?_register, List.mem_append, List.mem_singleton]
  rcases (h.made_committed ht).1 hg with hold | rfl
  · have hid := h.id_ne_registered hold k handle d
    have hne : g.stored ≠ (l.registered k handle d).stored := fun he =>
      hid (congrArg (·.record.registrationId) he)
    rw [or_iff_left hne, hmirror g hold]
    by_cases hk : g.key = k
    · -- the key was reserved, so that nothing was live under it
      have hnone : l.publisher.registrar.live? k = none := by
        rw [Registrar.live?, h.owned.sound.reserved ht]
        rfl
      rw [if_pos hk, hk, hnone]
      constructor
      · intro hlive
        cases hlive
      · intro hlive
        exact absurd (congrArg Registration.id (Option.some.inj hlive).symm) hid
    · rw [if_neg hk]
  · rw [if_pos hkey]
    exact ⟨fun _ => rfl, fun _ => .inr rfl⟩

/-! ## What a teardown owes -/

theorem Owes.fewer (howes : l.Owes d) (hmade : ∀ g, l'.publisher.Made g → l.publisher.Made g)
    (hstored : l'.memory.stored ⊆ l.memory.stored) : l'.Owes d :=
  fun g hg hs => howes g (hmade g hg) (hstored hs)

/-- A teardown that has just begun owes all that is stored. -/
theorem Mirrored.owes (hmirror : l.Mirrored) :
    l.Owes { rest := l.publisher.registrar.registrations } := by
  intro g hg hs
  exact .inl (Registrar.mem_registrations_iff.2 ⟨_, (hmirror g hg).1 hs⟩)

/-- A registration that is taken up is owed as before. -/
theorem Owes.taken {rest : List Registration} (howes : l.Owes d) (hrest : d.rest = g :: rest) :
    l.Owes { rest, removals := d.removals ++ [⟨u, g, none⟩] } := by
  intro g' hg' hs
  rcases howes g' hg' hs with hmem | ⟨m, hm, hmg, hno⟩
  · rw [hrest] at hmem
    rcases List.mem_cons.1 hmem with rfl | hmem
    · exact .inr ⟨⟨u, g', none⟩, by simp, rfl, by simp⟩
    · exact .inl hmem
  · exact .inr ⟨m, List.mem_append_left _ hm, hmg, hno⟩

/-- **A removal that ends** is owed no longer if it was done. -/
theorem Owes.note (howes : l.Owes d) (hkept : DrainKept l.publisher c d)
    (ht : l.publisher.stage? t = some (.unpublishing g))
    (hmade : ∀ g, l'.publisher.Made g → l.publisher.Made g)
    (hstored : l'.memory.stored ⊆ l.memory.stored)
    (hdone : o = .done → g.stored ∉ l'.memory.stored) : l'.Owes (d.note t o) := by
  intro g' hg' hs
  rcases howes g' (hmade g' hg') (hstored hs) with hmem | ⟨m, hm, hmg, hno⟩
  · exact .inl hmem
  · right
    refine ⟨_, List.mem_map_of_mem hm, ?_⟩
    by_cases htask : m.task = t
    · simp only [if_pos htask]
      refine ⟨hmg, ?_⟩
      -- the removal is of the registration that the task is about
      have hstage := hkept.removal m hm
      rw [htask, ht, Stage.ofRemoval] at hstage
      split at hstage
      · cases hstage
        subst hmg
        intro he
        exact hdone (Option.some.inj he) hs
      · cases hstage
    · simp only [if_neg htask]
      exact ⟨hmg, hno⟩

/-! ## The close -/

/-- **Where the close of task `c` stands** that has closed the registrar. -/
inductive Shutdown (l : LocalPublisher) (c : Nat) : Prop
  /-- It waits until nothing is reserved. -/
  | waits (hc : l.publisher.stage? c = some (.waiting .unpublishing))
      (hsole : SoleCloser l.publisher c) (hmirror : l.Mirrored)
  /-- It takes back what was live. -/
  | takesBack (d : Drain) (hc : l.publisher.stage? c = some (.draining d))
      (hsole : SoleCloser l.publisher c) (hmirror : l.Mirrored) (howes : l.Owes d)
  /-- It has released the registrar. -/
  | isOver (d : Drain) (hc : l.publisher.stage? c = some (.ended d.outcome))
      (hsole : SoleCloser l.publisher c) (hd : d.isComplete = true)
      (hends : ∀ m ∈ d.removals, ∀ o, m.outcome = some o → o = .done ∨ ∃ failure, o = .failed failure)
      (hbare : l.publisher.registrar.Bare) (howes : l.Owes d)

theorem Shutdown.closed (hs : l.Shutdown c) (h : l.Sane) :
    l.publisher.registrar.closed = true := by
  cases hs with
  | waits hc hsole hmirror => exact h.owned.sound.fits c _ hc
  | takesBack d hc hsole hmirror howes => exact (h.owned.sound.fits c _ hc).1
  | isOver d hc hsole hd hends hbare howes => exact hbare.closed

theorem Shutdown.ask (hs : l.Shutdown c) (request : Request) :
    Shutdown { l with publisher := l.publisher.ask request } c := by
  have hmade : ∀ g, (l.publisher.ask request).Made g → l.publisher.Made g :=
    fun g => (made_ask request).1
  cases hs with
  | waits hc hsole hmirror =>
    exact .waits (stage?_ask_of_some request hc) (hsole.ask request)
      (hmirror.congr hmade rfl fun _ => rfl)
  | takesBack d hc hsole hmirror howes =>
    exact .takesBack d (stage?_ask_of_some request hc) (hsole.ask request)
      (hmirror.congr hmade rfl fun _ => rfl) (howes.fewer hmade (List.Subset.refl _))
  | isOver d hc hsole hd hends hbare howes =>
    exact .isOver d (stage?_ask_of_some request hc) (hsole.ask request) hd hends hbare
      (howes.fewer hmade (List.Subset.refl _))

/-- **A step** goes on with the close, or leaves it where it stands. -/
theorem Shutdown.step {q : Publisher} (hs : l.Shutdown c) (h : l.Sane)
    (hstep : Step t l.publisher q) : Shutdown { l with publisher := q } c := by
  have hmade : ∀ g, q.Made g → l.publisher.Made g := fun g => (h.owned.sound.made_step hstep).1
  have hsole' : ∀ {c}, SoleCloser l.publisher c → SoleCloser q c := fun hsole =>
    hsole.step h.owned.sound (hs.closed h) hstep
  have hmirror' : l.Mirrored → Mirrored { l with publisher := q } := fun hmirror =>
    hmirror.congr hmade rfl (h.owned.live?_step hstep)
  cases hs with
  | waits hc hsole hmirror =>
    rcases h.owned.waiting_cases hstep hc with
      ⟨hwait, -⟩ | ⟨-, -, -, ⟨hnil, hended, hbare⟩ | hdrain⟩
    · exact .waits hwait (hsole' hsole) (hmirror' hmirror)
    · have howes := hmirror.owes
      rw [hnil] at howes
      exact .isOver { rest := [] } hended (hsole' hsole) rfl (by simp) hbare
        (howes.fewer hmade (List.Subset.refl _))
    · exact .takesBack _ hdrain (hsole' hsole) (hmirror' hmirror)
        (hmirror.owes.fewer hmade (List.Subset.refl _))
  | takesBack d hc hsole hmirror howes =>
    rcases h.owned.draining_step h.called hstep hc with ⟨hc', -⟩ | ⟨g, rest, hrest, -, hc'⟩
    · exact .takesBack d hc' (hsole' hsole) (hmirror' hmirror)
        (howes.fewer hmade (List.Subset.refl _))
    · exact .takesBack _ hc' (hsole' hsole) (hmirror' hmirror)
        ((howes.taken hrest).fewer hmade (List.Subset.refl _))
  | isOver d hc hsole hd hends hbare howes =>
    exact .isOver d (h.owned.sound.stage?_step_of_still hstep hc trivial) (hsole' hsole) hd hends
      ((h.owned.sound.changes_step hstep).bare hbare) (howes.fewer hmade (List.Subset.refl _))

/-- **The answer to a publish** leaves the close waiting. -/
theorem Shutdown.published {k : Key} {handle : Handle} {definition : Definition}
    (hs : l.Shutdown c) (h : l.Sane)
    (ht : l.publisher.stage? t = some (.publishing k handle definition))
    (hreply : Reply t l.publisher l'.publisher) (hmirror' : l.Mirrored → l'.Mirrored) :
    l'.Shutdown c := by
  cases hs with
  | waits hc hsole hmirror =>
    exact .waits (h.owned.sound.stage?_reply hreply hc id id) (hsole.reply h.owned.sound hreply)
      (hmirror' hmirror)
  | takesBack d hc hsole hmirror howes => exact absurd hc (h.owned.sound.not_draining ht)
  | isOver d hc hsole hd hends hbare howes =>
    exact absurd hbare.idle (h.owned.sound.not_idle ht)

/-- **The answer to an unpublish** may be the last that the close waits for. -/
theorem Shutdown.unpublished {p' : Publisher} (hs : l.Shutdown c) (h : l.Sane)
    (ht : l.publisher.stage? t = some (.unpublishing g))
    (hreply : Reply t l.publisher l'.publisher) (hq : l'.publisher = p'.finish t o)
    (htasks : p'.tasks = l.publisher.tasks) (ho : o = .done ∨ ∃ failure, o = .failed failure)
    (hstored : l'.memory.stored ⊆ l.memory.stored) (hdone : o = .done → g.stored ∉ l'.memory.stored)
    (hmirror' : l.Mirrored → l'.publisher.registrar = p'.registrar → l'.Mirrored) :
    l'.Shutdown c := by
  have hmade : ∀ g, l'.publisher.Made g → l.publisher.Made g := fun g =>
    (h.owned.sound.made_reply hreply fun k handle d ht' => by
      rw [ht] at ht'
      cases ht').1
  have apart : (∀ c d, l.publisher.parent? t = some c → l.publisher.stage? c ≠ some (.draining d)) →
      l'.publisher.registrar = p'.registrar := by
    intro hno
    rw [hq]
    exact h.owned.sound.registrar_finish_apart ht htasks hno o
  cases hs with
  | waits hc hsole hmirror =>
    refine .waits (h.owned.sound.stage?_reply hreply hc id id) (hsole.reply h.owned.sound hreply)
      (hmirror' hmirror (apart ?_))
    intro c' d hp hd
    rw [hsole c' _ hd trivial, hc] at hd
    cases hd
  | takesBack d hc hsole hmirror howes =>
    have hsole' := hsole.reply h.owned.sound hreply
    have hkept : DrainKept l.publisher c d := h.owned.kin c _ hc
    -- the close unpublishes it, or somebody else asked for that before
    by_cases hp : l.publisher.parent? t = some c
    · have howes' : l'.Owes (d.note t o) := howes.note hkept ht hmade hstored hdone
      have hself : p'.parent? t ≠ some t := by
        rw [parent?_congr htasks]
        exact h.owned.sound.parents.ne_self t
      rcases finish_removal hself ((stage?_congr htasks t).trans ht)
        ((parent?_congr htasks t).trans hp) ((stage?_congr htasks c).trans hc) o with
        ⟨hc', hr⟩ | ⟨hc', hcomplete, hr⟩
      · rw [← hq] at hc' hr
        exact .takesBack _ hc' hsole' (hmirror' hmirror hr) howes'
      · rw [← hq] at hc' hr
        have hquiet := (h.owned.sound.changes_reply hreply).quiet
          ⟨(h.owned.sound.fits c _ hc).1, (h.owned.sound.fits c _ hc).2⟩
        refine .isOver _ hc' hsole' hcomplete (ends_note hkept.ends ho) ⟨hquiet, ?_, ?_⟩ howes'
        · rw [hr]
          rfl
        · rw [hr]
          rfl
    · refine .takesBack d ?_ hsole' (hmirror' hmirror (apart ?_)) (howes.fewer hmade hstored)
      · exact h.owned.sound.stage?_reply_of_ne hreply (hreply.ne hc id) hc (.inr ⟨⟨d, rfl⟩, hp⟩)
      · intro c' d' hp' hd'
        rw [hsole c' _ hd' trivial] at hp'
        exact hp hp'
  | isOver d hc hsole hd hends hbare howes =>
    exact .isOver d (h.owned.sound.stage?_reply hreply hc id id) (hsole.reply h.owned.sound hreply) hd
      hends ((h.owned.sound.changes_reply hreply).bare hbare) (howes.fewer hmade hstored)

/-! ## Answers -/

theorem Mirrored.lost {k : Key} {handle : Handle} {definition : Definition} (hmirror : l.Mirrored)
    (h : l.Sane) (ht : l.publisher.stage? t = some (.publishing k handle definition))
    (ha : Answered t l { l with publisher :=
      (l.publisher.withRegistrar (l.publisher.registrar.abandon k)).wakeIdle.finish t o })
    (ho : o.registration? = none) :
    Mirrored { l with publisher :=
      (l.publisher.withRegistrar (l.publisher.registrar.abandon k)).wakeIdle.finish t o } := by
  refine hmirror.congr ?_ rfl ?_
  · intro g
    refine (h.owned.sound.made_reply ha.reply ?_).1
    intro k' handle' definition' ht'
    exact ⟨o, h.owned.sound.ended_finish (by simp) ht _, ho⟩
  · intro k'
    rw [h.owned.sound.registrar_finish_publishing ht (by simp)]
    rw [registrar_wakeIdle, registrar_withRegistrar, Registrar.live?_abandon]

/-- The answer to an unpublish makes no registration. -/
theorem Sane.made_of_unpublished (h : l.Sane) (ht : l.publisher.stage? t = some (.unpublishing g))
    (hreply : Reply t l.publisher l'.publisher) (g' : Registration)
    (hg' : l'.publisher.Made g') : l.publisher.Made g' := by
  refine (h.owned.sound.made_reply hreply ?_).1 hg'
  intro k handle d ht'
  rw [ht] at ht'
  cases ht'

theorem Mirrored.removed (hmirror : l.Mirrored) (h : l.Sane)
    (ht : l.publisher.stage? t = some (.unpublishing g))
    (hr : (l.removed t g).publisher.registrar = l.publisher.registrar.unregister g) :
    (l.removed t g).Mirrored := by
  have hg : l.publisher.Made g := h.acquainted.mentioned t _ g ht rfl
  refine hmirror.without h hg (h.made_of_unpublished ht (Answered.remove g ht).reply) rfl ?_
  intro k
  rw [hr]

/-- **An answer** does not stop the close. -/
theorem Shutdown.answer (hs : l.Shutdown c) (h : l.Sane) (ha : Answered t l l') :
    l'.Shutdown c := by
  have hreply := ha.reply
  cases ha with
  | commit k handle d ht =>
    exact hs.published h ht hreply fun hmirror => hmirror.committed h ht
  | lose k handle d outcome ht ho =>
    refine hs.published h ht hreply fun hmirror => hmirror.lost h ht (.lose k handle d _ ht ho) ?_
    rcases ho with ⟨_, rfl⟩ | ⟨_, rfl⟩ <;> rfl
  | remove g ht =>
    refine hs.unpublished h ht hreply rfl (by simp) (.inl rfl)
      (MemoryRegistry.without_subset _ _) (fun _ => MemoryRegistry.not_mem_without _ _) ?_
    intro hmirror hr
    refine hmirror.removed h ht ?_
    rw [hr, registrar_withdraw, registrar_withRegistrar]
  | keep g cause ht =>
    refine hs.unpublished h ht hreply rfl rfl (.inr ⟨_, rfl⟩) (List.Subset.refl _)
      (fun he => by cases he) ?_
    intro hmirror hr
    refine hmirror.congr (h.made_of_unpublished ht hreply) rfl ?_
    intro k
    rw [hr]

/-- **No effect stops the close.** -/
theorem Shutdown.effects (hs : l.Shutdown c) (h : l.Sane) (he : ReflTransGen Effect l l') :
    l'.Shutdown c := by
  induction he with
  | refl => exact hs
  | tail hsteps he ih =>
    have hsane := h.effects hsteps
    cases he with
    | ask request hr hmade => exact ih.ask request
    | step t q hstep => exact ih.step hsane hstep
    | answer t l' ha => exact ih.answer hsane ha

/-! ## While the registrar is open -/

/-- **An answer keeps an open registrar open**, and what is stored in step with what is live. -/
theorem Answered.keeps_open (ha : Answered t l l') (h : l.Sane)
    (hopen : l.publisher.registrar.closed = false) (hmirror : l.Mirrored) :
    l'.publisher.registrar.closed = false ∧ l'.Mirrored := by
  have hreply := ha.reply
  -- no teardown is under way whose last removal would release the registrar
  have hno : ∀ c d, l.publisher.parent? t = some c → l.publisher.stage? c ≠ some (.draining d) :=
    fun c d _ hc => h.owned.sound.not_closing hopen hc trivial
  cases ha with
  | commit k handle d ht =>
    refine ⟨?_, hmirror.committed h ht⟩
    show (Publisher.finish _ t _).registrar.closed = false
    rw [h.owned.sound.registrar_finish_apart ht (by simp) hno, registrar_withRegistered]
    exact hopen
  | lose k handle d outcome ht ho =>
    refine ⟨?_, hmirror.lost h ht (.lose k handle d _ ht ho) ?_⟩
    · show (Publisher.finish _ t _).registrar.closed = false
      rw [h.owned.sound.registrar_finish_apart ht (by simp) hno, registrar_wakeIdle]
      exact hopen
    · rcases ho with ⟨_, rfl⟩ | ⟨_, rfl⟩ <;> rfl
  | remove g ht =>
    have hr : (l.removed t g).publisher.registrar = l.publisher.registrar.unregister g := by
      show (Publisher.finish _ t _).registrar = _
      rw [h.owned.sound.registrar_finish_apart ht (by simp) hno, registrar_withdraw,
        registrar_withRegistrar]
    refine ⟨?_, hmirror.removed h ht hr⟩
    rw [hr, Registrar.closed_unregister, hopen]
  | keep g cause ht =>
    have hr := h.owned.sound.registrar_finish_apart ht rfl hno
      (.failed (.remote g.registry g.schema cause))
    refine ⟨?_, hmirror.congr (h.made_of_unpublished ht hreply) rfl ?_⟩
    · show (l.publisher.finish t _).registrar.closed = false
      rw [hr, hopen]
    · intro k
      show (l.publisher.finish t _).registrar.live? k = _
      rw [hr]

/-- **In the turn of a task** an open registrar stays open, or the task was asked to close and does. -/
theorem Sane.open_steps {q : Publisher} (h : l.Sane) (hopen : l.publisher.registrar.closed = false)
    (hmirror : l.Mirrored) (hs : ReflTransGen (Step t) l.publisher q) :
    (q.registrar.closed = false ∧ Mirrored { l with publisher := q } ∧
        ∀ td, q.stage? t = some (.asked (.close td)) →
          l.publisher.stage? t = some (.asked (.close td))) ∨
      (l.publisher.stage? t = some (.asked (.close .unpublishing)) ∧
        Shutdown { l with publisher := q } t) := by
  induction hs with
  | refl => exact .inl ⟨hopen, hmirror, fun td ht => ht⟩
  | @tail q q' hsteps hstep ih =>
    have hsane : Sane { l with publisher := q } := h.effects (effects_of_steps hsteps)
    rcases ih with ⟨hopen', hmirror', hasked⟩ | ⟨hasked, hshut⟩
    · have hmirror'' : Mirrored { l with publisher := q' } :=
        hmirror'.congr (fun g => (hsane.owned.sound.made_step hstep).1) rfl
          (hsane.owned.live?_step hstep)
      rcases hsane.owned.close_step hstep hopen' with hstill | ⟨ht, hwait, hsole⟩
      · exact .inl ⟨hstill, hmirror'', fun td ht =>
          hasked td (hsane.owned.sound.asked_close_step hstep ht)⟩
      · exact .inr ⟨hasked _ ht, .waits hwait hsole hmirror''⟩
    · exact .inr ⟨hasked, hshut.step hsane hstep⟩

end SchemaHerald.LocalPublisher
