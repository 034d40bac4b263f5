import SchemaHerald.Proofs.Lifecycle

/-!
# What tasks do to the registrar

A task changes the registrar in one of six ways, which `Registrar.Change` lists together with what
is known when it does. `Sound.changes_move` says that every move of a publisher's own tasks is made
up of them, so that what each of the six keeps is kept always. Three such facts are proved here: a
live registration stands under its own key and has the handle that is stored (`Tidy`), a handle is
lost only when it is shut (`Keeps`), and a registrar that is closed and has no reservation out stays
so (`Quiet`); once it is released nothing comes back (`Bare`).

`Registrar.Use` lists what callers do who use the registrar directly, and `Sound.use_move` says that
there is nothing else.
-/
namespace SchemaHerald

namespace Registrar

open Relation

variable {r r' r'' : Registrar}

/-- **What a task does to the registrar.** -/
inductive Change (r : Registrar) : Registrar → Prop
  | reserve (o : RegistryOptions) (schema : String) (k : Key) (r' : Registrar)
      (hr : r.reserve o.name schema = .ok (k, r')) : Change r (r'.handleFor o).2
  | commit (k : Key) (record : Record) (h : Handle) (listened : Bool) (hk : k.IsCanonical)
      (hres : r.slots.get? k = some .reserved) (hh : r.handles.get? k.registry = some h)
      (hn : h.name = k.registry) : Change r (r.register k record h listened).2
  | abandon (k : Key) (hres : r.slots.get? k = some .reserved) : Change r (r.abandon k)
  | unregister (g : Registration) : Change r (r.unregister g)
  | close : Change r r.close
  | release (hc : r.closed = true) (h0 : r.inFlight = 0) : Change r r.release

/-- **What a caller does to the registrar** who uses it directly. A use that is refused does
nothing. -/
inductive Use (r : Registrar) : Registrar → Prop
  | refused : Use r r
  | reserve (registry schema : String) (k : Key) (r' : Registrar)
      (hr : r.reserve registry schema = .ok (k, r')) : Use r r'
  | drop (k : Key) (hres : r.slots.get? k = some .reserved) : Use r (r.abandon k)
  | register (k : Key) (record : Record) (h : Handle) (hres : r.slots.get? k = some .reserved) :
      Use r (r.register k record h true).2
  | unregister (g : Registration) : Use r (r.unregister g)
  | newHandle (o : RegistryOptions) : Use r (r.newHandle o).2
  | handleFor (o : RegistryOptions) : Use r (r.handleFor o).2

/-- Any number of changes. -/
abbrev Changes : Registrar → Registrar → Prop := ReflTransGen Change

/-- **Live registrations stand under their own keys**, and have the handle that is stored. -/
def Tidy (r : Registrar) : Prop :=
  ∀ k g, r.live? k = some g →
    k.IsCanonical ∧ g.key = k ∧ r.handles.get? k.registry = some g.handle

/-- **Handles are lost only by being shut.** -/
structure Keeps (r r' : Registrar) : Prop where
  handle : ∀ n h, r.handles.get? n = some h →
    r'.handles.get? n = some h ∨ h.number ∈ r'.shut
  shut : ∀ n ∈ r.shut, n ∈ r'.shut
  closed : r.closed = true → r'.closed = true

/-- Nothing is reserved, and nothing can be. -/
structure Quiet (r : Registrar) : Prop where
  closed : r.closed = true
  idle : r.inFlight = 0

/-- **Nothing is left.** -/
structure Bare (r : Registrar) : Prop extends r.Quiet where
  slots : r.slots = {}
  handles : r.handles = {}

theorem live?_reserve {registry schema : String} {k k' : Key}
    (hr : r.reserve registry schema = .ok (k, r')) : r'.live? k' = r.live? k' := by
  obtain ⟨-, -, hfree, rfl⟩ := reserve_eq_ok_iff.1 hr
  simp only [live?, Table.get?_insert]
  split
  · rename_i hk
    rw [hk, hfree]
    rfl
  · rfl

theorem live?_handleFor {o : RegistryOptions} {k : Key} :
    (r.handleFor o).2.live? k = r.live? k := by
  rw [live?, slots_handleFor, live?]

theorem Tidy.change (h : r.Tidy) (hc : r.Change r') : r'.Tidy := by
  intro k g hg
  cases hc with
  | reserve o schema k' r₁ hr =>
    obtain ⟨hk, hkey, hh⟩ := h k g (by rwa [live?_handleFor, live?_reserve hr] at hg)
    refine ⟨hk, hkey, get?_handleFor_of_some ?_⟩
    rw [(reserve_eq_ok_iff.1 hr).2.2.2]
    exact hh
  | commit k' record h' listened hk hres hh hn =>
    rw [live?_register] at hg
    split at hg
    · rename_i hkk
      cases hg
      subst hkk
      exact ⟨hk, congrArg (Key.mk · k.schema) hn, hh⟩
    · exact h k g hg
  | abandon k' hres => exact h k g (by rwa [live?_abandon] at hg)
  | unregister g' =>
    rw [live?_unregister] at hg
    split at hg
    · cases hg
    · rw [handles_unregister]
      exact h k g hg
  | close => exact h k g hg
  | release hc h0 => cases hg

/-- What is live after a registration was taken back was live before, and is another one. -/
theorem Tidy.of_live?_unregister {g g' : Registration} {k : Key} (h : r.Tidy)
    (hg : (r.unregister g').live? k = some g) : r.live? k = some g ∧ g ≠ g' := by
  rw [live?_unregister] at hg
  split at hg
  · cases hg
  · rename_i hstays
    refine ⟨hg, ?_⟩
    rintro rfl
    obtain ⟨-, rfl, -⟩ := h k g hg
    exact hstays ⟨rfl, holds_iff.2 ⟨g, hg, by simp [Registration.alike]⟩⟩

theorem Keeps.refl (r : Registrar) : r.Keeps r :=
  ⟨fun _ _ hh => .inl hh, fun _ hn => hn, id⟩

theorem Keeps.trans (h : r.Keeps r') (h' : r'.Keeps r'') : r.Keeps r'' where
  handle n g hg := by
    rcases h.handle n g hg with hg | hg
    · exact h'.handle n g hg
    · exact .inr (h'.shut _ hg)
  shut n hn := h'.shut n (h.shut n hn)
  closed hc := h'.closed (h.closed hc)

/-- A registrar that is open has been open. -/
theorem Keeps.open_of_open (h : r.Keeps r') (hopen : r'.closed = false) : r.closed = false := by
  cases hc : r.closed with
  | false => rfl
  | true =>
    rw [h.closed hc] at hopen
    cases hopen

theorem Change.keeps (hc : r.Change r') : r.Keeps r' := by
  cases hc with
  | reserve o schema k r₁ hr =>
    obtain ⟨hopen, -, -, rfl⟩ := reserve_eq_ok_iff.1 hr
    refine ⟨fun n g hg => .inl (get?_handleFor_of_some hg), fun n hn => ?_, fun hcl => ?_⟩
    · rw [shut_handleFor]
      exact hn
    · rw [closed_handleFor]
      exact hcl
  | commit => exact ⟨fun _ _ hh => .inl hh, fun _ hn => hn, id⟩
  | abandon => exact ⟨fun _ _ hh => .inl hh, fun _ hn => hn, id⟩
  | unregister g =>
    refine ⟨fun n g' hg => .inl ?_, fun n hn => ?_, fun hcl => ?_⟩
    · rw [handles_unregister]
      exact hg
    · rw [shut_unregister]
      exact hn
    · rw [closed_unregister]
      exact hcl
  | close => exact ⟨fun _ _ hh => .inl hh, fun _ hn => hn, fun _ => rfl⟩
  | release hcl h0 =>
    refine ⟨fun n g hg => .inr ?_, fun n hn => List.mem_append_right _ hn, id⟩
    exact List.mem_append_left _ (List.mem_map_of_mem ((Table.mem_values_iff _ _).2 ⟨n, hg⟩))

/-- A use that leaves handles alone loses none. -/
theorem Keeps.of_eq (hh : r'.handles = r.handles) (hs : r'.shut = r.shut)
    (hc : r'.closed = r.closed) : r.Keeps r' where
  handle _ _ hg := .inl (hh ▸ hg)
  shut _ hn := hs ▸ hn
  closed hcl := hc.trans hcl

theorem Use.keeps (hu : r.Use r') : r.Keeps r' := by
  cases hu with
  | refused => exact .refl r
  | reserve registry schema k _ hr =>
    obtain ⟨-, -, -, rfl⟩ := reserve_eq_ok_iff.1 hr
    exact .of_eq rfl rfl rfl
  | drop | register | newHandle => exact .of_eq rfl rfl rfl
  | unregister g =>
    exact .of_eq (handles_unregister g) (shut_unregister g) (closed_unregister g)
  | handleFor o =>
    refine ⟨fun n g hg => .inl (get?_handleFor_of_some hg), fun n hn => ?_, fun hcl => ?_⟩
    · rwa [shut_handleFor]
    · rwa [closed_handleFor]

theorem Quiet.change (h : r.Quiet) (hc : r.Change r') : r'.Quiet := by
  refine ⟨hc.keeps.closed h.closed, ?_⟩
  cases hc with
  | reserve o schema k r₁ hr =>
    have hopen := (reserve_eq_ok_iff.1 hr).1
    rw [h.closed] at hopen
    cases hopen
  | commit | abandon => exact (congrArg (· - 1) h.idle :)
  | unregister g =>
    rw [inFlight_unregister]
    exact h.idle
  | close => exact h.idle
  | release => exact h.idle

theorem Quiet.use (h : r.Quiet) (hu : r.Use r') : r'.Quiet := by
  refine ⟨hu.keeps.closed h.closed, ?_⟩
  cases hu with
  | reserve registry schema k _ hr =>
    have hopen := (reserve_eq_ok_iff.1 hr).1
    rw [h.closed] at hopen
    cases hopen
  | drop | register => exact (congrArg (· - 1) h.idle :)
  | unregister g =>
    rw [inFlight_unregister]
    exact h.idle
  | handleFor o =>
    rw [inFlight_handleFor]
    exact h.idle
  | refused | newHandle => exact h.idle

theorem Bare.change (h : r.Bare) (hc : r.Change r') : r'.Bare := by
  have hfree : ∀ k, r.slots.get? k = none := fun k => by rw [h.slots]; rfl
  obtain ⟨hslots, hhandles⟩ : r'.slots = {} ∧ r'.handles = {} := by
    cases hc with
    | reserve o schema k r₁ hr =>
      have hopen := (reserve_eq_ok_iff.1 hr).1
      rw [h.closed] at hopen
      cases hopen
    | commit k record g listened hk hres hh hn =>
      rw [hfree] at hres
      cases hres
    | abandon k hres =>
      rw [hfree] at hres
      cases hres
    | unregister g =>
      have hno : r.unregister g = r := by
        unfold unregister
        rw [if_neg fun hholds => ?_]
        obtain ⟨g', hg', -⟩ := holds_iff.1 hholds
        rw [live?, hfree] at hg'
        cases hg'
      rw [hno]
      exact ⟨h.slots, h.handles⟩
    | close => exact ⟨h.slots, h.handles⟩
    | release => exact ⟨rfl, rfl⟩
  exact ⟨h.toQuiet.change hc, hslots, hhandles⟩

theorem bare_release (hc : r.closed = true) (h0 : r.inFlight = 0) : r.release.Bare :=
  ⟨⟨hc, h0⟩, rfl, rfl⟩

theorem Changes.tidy (hc : r.Changes r') (h : r.Tidy) : r'.Tidy := by
  induction hc with
  | refl => exact h
  | tail _ hstep ih => exact ih.change hstep

theorem Changes.keeps (hc : r.Changes r') : r.Keeps r' := by
  induction hc with
  | refl => exact .refl r
  | tail _ hstep ih => exact ih.trans hstep.keeps

theorem Changes.quiet (hc : r.Changes r') (h : r.Quiet) : r'.Quiet := by
  induction hc with
  | refl => exact h
  | tail _ hstep ih => exact ih.change hstep

theorem Changes.bare (hc : r.Changes r') (h : r.Bare) : r'.Bare := by
  induction hc with
  | refl => exact h
  | tail _ hstep ih => exact ih.change hstep

end Registrar

namespace Publisher

open Relation

variable {p q : Publisher} {t : Nat} {s : Stage}

/-- The end of a task releases the registrar when a teardown is complete by it, which then ends. -/
theorem registrar_finish (hself : p.parent? t ≠ some t) (ht : p.stage? t = some s) (o : Outcome) :
    (p.finish t o).registrar = p.registrar ∨
      ∃ c d, p.parent? t = some c ∧ p.stage? c = some (.draining d) ∧
        (d.note t o).isComplete = true ∧
        (p.finish t o).registrar = p.registrar.release ∧
        (p.finish t o).stage? c = some (.ended (d.note t o).outcome) := by
  cases finished_finish hself ht o with
  | alone hp hq => exact .inl (by rw [hq]; rfl)
  | noted c b b' hp hb hnoted hc hended hu hq => exact .inl hq.registrar
  | drained c d hp hd hopen hq => exact .inl (by rw [hq]; rfl)
  | released c d hp hd hdone hq =>
    refine .inr ⟨c, d, hp, hd, hdone, by rw [hq]; rfl, ?_⟩
    have hne : c ≠ t := fun he => hself (he ▸ hp)
    rw [hq, stage?_setStage_self (s := .draining d)]
    rw [stage?_congr (tasks_withRegistrar ..), stage?_setStage_of_ne hne, hd]

/-- A task ends after the registrar was changed for it. -/
theorem Sound.changes_finish (h : p.Sound) (ht : p.stage? t = some s) (p' : Publisher)
    (htasks : p'.tasks = p.tasks) (o : Outcome) (hc : p.registrar.Change p'.registrar) :
    p.registrar.Changes (p'.finish t o).registrar := by
  have hself : p'.parent? t ≠ some t := by
    rw [parent?_congr htasks]
    exact h.parents.ne_self _
  rcases registrar_finish hself ((stage?_congr htasks t).trans ht) o with he | ⟨c, d, -, hd, -, he, -⟩
  · rw [he]
    exact .single hc
  · rw [stage?_congr htasks] at hd
    have hfits := h.fits c _ hd
    have hquiet : p'.registrar.Quiet := Registrar.Quiet.change ⟨hfits.1, hfits.2⟩ hc
    rw [he]
    exact .tail (.single hc) (.release hquiet.closed hquiet.idle)

/-- A task ends, and nothing else. -/
theorem Sound.changes_finish_alone (h : p.Sound) (ht : p.stage? t = some s) (o : Outcome) :
    p.registrar.Changes (p.finish t o).registrar := by
  have hself : p.parent? t ≠ some t := h.parents.ne_self t
  rcases registrar_finish hself ht o with he | ⟨c, d, -, hd, -, he, -⟩
  · rw [he]
  · rw [he]
    have hfits := h.fits c _ hd
    exact .single (.release hfits.1 hfits.2)

theorem Sound.changes_step (h : p.Sound) (hs : Step t p q) :
    p.registrar.Changes q.registrar := by
  cases hs with
  | refuse o d failure ht => exact h.changes_finish_alone ht _
  | refuseBatch o ds outcome ht ho => exact h.changes_finish_alone ht _
  | closeAgain td ht hc => exact h.changes_finish_alone ht _
  | release td outcome ht h0 ho =>
    exact h.changes_finish ht (p.withRegistrar p.registrar.release) rfl _
      (.release (h.fits t _ ht) h0)
  | reserve o o' d k r ht ho hd hr => exact .single (.reserve o' d.name k r hr)
  | close td ht hc => exact .single .close
  | _ => exact .refl

/-- A task that publishes has its key reserved. -/
theorem Sound.reserved {k : Key} {h : Handle} {d : Definition} (hp : p.Sound)
    (ht : p.stage? t = some (.publishing k h d)) :
    p.registrar.slots.get? k = some .reserved :=
  (hp.claimed.reserved k).2 (List.mem_append_right _ (mem_flights_iff.2 ⟨t, _, ht, rfl⟩))

theorem Sound.changes_reply (h : p.Sound) (hs : Reply t p q) :
    p.registrar.Changes q.registrar := by
  cases hs with
  | commit k g d record ht =>
    obtain ⟨hk, hd, hh⟩ := h.fits t _ ht
    refine h.changes_finish ht _ (by simp) _ ?_
    rw [registrar_withRegistered]
    exact .commit k record g p.listening hk (h.reserved ht) hh (h.named _ _ hh)
  | lose k g d outcome ht ho =>
    refine h.changes_finish ht _ (by simp) _ ?_
    rw [registrar_wakeIdle]
    exact .abandon k (h.reserved ht)
  | remove g ht =>
    refine h.changes_finish ht _ (by simp) _ ?_
    rw [registrar_withdraw]
    exact .unregister g
  | keep g cause ht => exact h.changes_finish_alone ht _
  | tried s outcome ht hs ho => exact h.changes_finish_alone ht _

theorem Sound.changes_steps (h : p.Sound) (hs : ReflTransGen (Step t) p q) :
    p.registrar.Changes q.registrar := by
  induction hs with
  | refl => exact .refl
  | tail hsteps hstep ih => exact ih.trans ((h.steps hsteps).changes_step hstep)

/-- **A move that is no direct use of the registrar** changes it as tasks do. -/
theorem Sound.changes_move (h : p.Sound) {m : Move} (hm : m.isDirect = false) :
    p.registrar.Changes (p.move m).registrar := by
  have hboth : (p.move m).Sound ∧ p.registrar.Changes (p.move m).registrar := by
    refine move_induction (P := fun q => q.Sound ∧ p.registrar.Changes q.registrar) m ?_ ?_ ?_ ?_
      ⟨h, .refl⟩
    · exact fun request _ => ⟨h.ask request, .refl⟩
    · exact fun _ _ _ hs ⟨hq, hc⟩ => ⟨hq.step hs, hc.trans (hq.changes_step hs)⟩
    · exact fun _ _ hs => ⟨h.reply hs, h.changes_reply hs⟩
    · intro hd
      rw [hm] at hd
      cases hd
  exact hboth.2

/-! ## Direct use -/

/-- **A direct use of the registrar** is one of those that are listed. -/
theorem Sound.use_move (h : p.Sound) {m : Move} (hm : m.isDirect = true) :
    p.registrar.Use (p.move m).registrar := by
  have reserved : ∀ {k}, p.held.contains k = true →
      p.registrar.slots.get? k = some .reserved := fun hk =>
    (h.claimed.reserved _).2 (List.mem_append_left _ (List.contains_iff_mem.1 hk))
  cases m with
  | reserve registry schema =>
    simp only [Publisher.move, Publisher.reserve]
    cases hr : p.registrar.reserve registry schema with
    | error failure => exact .refused
    | ok made => exact .reserve registry schema made.1 made.2 hr
  | drop k =>
    simp only [Publisher.move, drop]
    split
    · rename_i hk
      rw [registrar_wakeIdle]
      exact .drop k (reserved hk)
    · exact .refused
  | register k record handle =>
    simp only [Publisher.move, Publisher.register]
    split
    · rename_i q hq
      split at hq
      · rename_i hk
        cases hq
        rw [registrar_wakeIdle]
        exact .register k record handle (reserved hk)
      · cases hq
    · exact .refused
  | unregister g => exact .unregister g
  | newHandle options => exact .newHandle options
  | handleFor options => exact .handleFor options
  | ask | abandon | run | answerPublish | answerUnpublish => cases hm

/-- **In every move** handles are lost only by being shut, and nothing opens the registrar again. -/
theorem Sound.keeps_move (h : p.Sound) (m : Move) : p.registrar.Keeps (p.move m).registrar := by
  cases hm : m.isDirect with
  | true => exact (h.use_move hm).keeps
  | false => exact (h.changes_move hm).keeps

theorem Sound.keeps_moves (h : p.Sound) (ms : List Move) :
    p.registrar.Keeps (p.moves ms).registrar := by
  induction ms generalizing p with
  | nil => exact .refl _
  | cons m ms ih => exact (h.keeps_move m).trans (ih (h.move m))

end Publisher
end SchemaHerald
