import SchemaHerald.Proofs.Exclusion
import SchemaHerald.Proofs.OpenHandles

/-!
# What the tables of a registrar say

Whatever a publisher's own callers do, the tables of its registrar agree. A registration stands under
its own key, is signed by the publisher, and has the handle of its registry, which is open. A handle
stands under its own name and was made for the first publish to that registry that obtained a
reservation (`FirstUse`): the options are those of that publish, whatever became of it. The listings
are in strict order and tell of every registration, which is found by its names.

Handles are made in one place only. `Sound.handles_steps` says which turn of which task that is, and
`Registrar.Keeps` and `Registrar.ShutsLast` that no handle is lost before the registrar is released,
so that the turn in which a stored handle was made is the first one to obtain a reservation.
-/
namespace SchemaHerald

open Std

namespace Registrar

variable {r r' : Registrar} {id : String} {g : Registration}

/-! ## Listings in order -/

theorem Tidy.pairwise_filterMap (h : r.Tidy) :
    (r.slots.values.filterMap Slot.registration?).Pairwise fun a b =>
      compare a.key b.key = .lt := by
  rw [List.pairwise_filterMap, Table.values, List.pairwise_map]
  refine r.slots.ordered.imp_of_mem fun {a b} ha hb hlt g hg g' hg' => ?_
  -- the slots are in strict order of their keys, and a registration stands under its own
  have key_of : ∀ {e : Key × Slot} {g}, e ∈ r.slots.entries → e.2.registration? = some g →
      g.key = e.1 := by
    intro e g he hg
    have hget := (Table.mem_entries_iff r.slots e.1 e.2).1 he
    refine (h e.1 g ?_).2.1
    rw [live?, hget]
    exact hg
  rw [key_of ha hg, key_of hb hg']
  exact hlt

/-- **Registrations are listed in strict order of their keys.** -/
theorem Tidy.pairwise_registrations (h : r.Tidy) :
    r.registrations.Pairwise fun a b => compare a.key b.key = .lt := by
  have hordered := h.pairwise_filterMap
  have hsorted : r.registrations = r.slots.values.filterMap Slot.registration? := by
    refine List.mergeSort_of_pairwise (hordered.imp fun {a b} hlt => ?_)
    simp [Registration.le, hlt]
  rw [hsorted]
  exact hordered

/-- **The names of registries are listed in strict order.** -/
theorem pairwise_registryNames (r : Registrar) :
    r.registryNames.Pairwise fun a b => compare a b = .lt := by
  rw [registryNames, Table.keys, List.pairwise_map]
  exact r.handles.ordered

theorem mem_registryNames_iff {n : String} :
    n ∈ r.registryNames ↔ ∃ h, r.handles.get? n = some h := by
  simp [registryNames, Table.keys, ← Table.mem_entries_iff]

/-- **A registration is found by its names**, and its registry has a handle. -/
theorem Tidy.find? (h : r.Tidy) (hg : g ∈ r.registrations) :
    r.find? g.registry g.schema = some g ∧ g.registry ∈ r.registryNames := by
  obtain ⟨k, hk⟩ := mem_registrations_iff.1 hg
  obtain ⟨hcanonical, rfl, hstored⟩ := h k g hk
  refine ⟨?_, mem_registryNames_iff.2 ⟨g.handle, hstored⟩⟩
  have hkey : Key.canonical g.registry g.schema = g.key := by
    rw [Key.canonical]
    exact congrArg₂ Key.mk hcanonical.registry_trim hcanonical.schema_trim
  rw [Registrar.find?, hkey]
  exact hk

/-! ## Signatures and handles that are open -/

/-- **Live registrations are signed** by a publisher. -/
structure Signed (r : Registrar) (id : String) : Prop where
  publisher : r.publisher = id
  live : ∀ k g, r.live? k = some g → g.publisher = id

/-- **Handles are shut last**: nothing is left by then. -/
def ShutsLast (r : Registrar) : Prop := r.shut ≠ [] → r.Bare

theorem Change.publisher (hc : r.Change r') : r'.publisher = r.publisher := by
  cases hc with
  | reserve o schema k r₁ hr => rw [publisher_handleFor, (reserve_eq_ok_iff.1 hr).2.2.2]
  | unregister g => exact publisher_unregister g
  | commit | abandon | close | release => rfl

theorem Changes.publisher (hc : r.Changes r') : r'.publisher = r.publisher := by
  induction hc with
  | refl => rfl
  | tail _ hstep ih => exact hstep.publisher.trans ih

theorem Use.publisher (hu : r.Use r') : r'.publisher = r.publisher := by
  cases hu with
  | reserve registry schema k r' hr => rw [(reserve_eq_ok_iff.1 hr).2.2.2]
  | unregister g => exact publisher_unregister g
  | handleFor o => exact publisher_handleFor o
  | _ => rfl

theorem Signed.change (h : r.Signed id) (hc : r.Change r') : r'.Signed id := by
  refine ⟨hc.publisher.trans h.publisher, fun k g hg => ?_⟩
  cases hc with
  | reserve o schema k' r₁ hr => exact h.live k g (by rwa [live?_handleFor, live?_reserve hr] at hg)
  | commit k' record h' listened hk hres hh hn =>
    rw [live?_register] at hg
    split at hg
    · cases hg
      exact h.publisher
    · exact h.live k g hg
  | abandon k' hres => exact h.live k g (by rwa [live?_abandon] at hg)
  | unregister g' =>
    rw [live?_unregister] at hg
    split at hg
    · cases hg
    · exact h.live k g hg
  | close => exact h.live k g hg
  | release hc h0 => cases hg

theorem ShutsLast.change (h : r.ShutsLast) (hc : r.Change r') : r'.ShutsLast := by
  have same : r'.shut = r.shut → r'.ShutsLast := by
    intro hshut hne
    rw [hshut] at hne
    exact (h hne).change hc
  cases hc with
  | reserve o schema k r₁ hr =>
    refine same ?_
    rw [shut_handleFor, (reserve_eq_ok_iff.1 hr).2.2.2]
  | unregister g => exact same (shut_unregister g)
  | commit | abandon | close => exact same rfl
  | release hc h0 => exact fun _ => bare_release hc h0

theorem Changes.signed (hc : r.Changes r') (h : r.Signed id) : r'.Signed id := by
  induction hc with
  | refl => exact h
  | tail _ hstep ih => exact ih.change hstep

theorem Changes.shutsLast (hc : r.Changes r') (h : r.ShutsLast) : r'.ShutsLast := by
  induction hc with
  | refl => exact h
  | tail _ hstep ih => exact ih.change hstep

/-- **A handle that is stored is open.** -/
theorem ShutsLast.isOpen {n : String} {h : Handle} (hlast : r.ShutsLast)
    (hh : r.handles.get? n = some h) : r.isShut h = false := by
  have hnil : r.shut = [] := by
    by_contra hne
    rw [(hlast hne).handles] at hh
    cases hh
  rw [isShut, hnil]
  rfl

/-- Only a reservation brings a handle: the registrar is open then. -/
theorem Change.open_of_new {n : String} {h : Handle} (hc : r.Change r')
    (hnone : r.handles.get? n = none) (hh : r'.handles.get? n = some h) : r.closed = false := by
  cases hc with
  | reserve o schema k r₁ hr => exact (reserve_eq_ok_iff.1 hr).1
  | unregister g =>
    rw [handles_unregister] at hh
    cases hnone.symm.trans hh
  | commit | abandon | close => cases hnone.symm.trans hh
  | release => cases hh

theorem Changes.open_of_new {n : String} {h : Handle} (hc : r.Changes r')
    (hnone : r.handles.get? n = none) (hh : r'.handles.get? n = some h) : r.closed = false := by
  induction hc generalizing h with
  | refl => cases hnone.symm.trans hh
  | @tail r₁ r₂ hsteps hstep ih =>
    cases hold : r₁.handles.get? n with
    | none => exact (Changes.keeps hsteps).open_of_open (hstep.open_of_new hold hh)
    | some h' => exact ih hold

end Registrar

namespace Publisher

open Relation

variable {p q : Publisher} {t : Nat} {s : Stage} {o : RegistryOptions} {d : Definition} {n : String}
  {h : Handle} {ms : List Move} {m : Move}

/-! ## Where handles come from -/

/-- The task is to publish, and does not wait for a permit. -/
def AboutTo (p : Publisher) (t : Nat) (o : RegistryOptions) (d : Definition) : Prop :=
  p.stage? t = some (.asked (.publish o d)) ∨ p.stage? t = some (.permitted o d)

/-- **A publish obtains a reservation** in a registry by a move: the turn of its task. -/
def Obtains (p : Publisher) (m : Move) (n : String) (o : RegistryOptions) : Prop :=
  ∃ t d k h d', m = .run t ∧ p.AboutTo t o d ∧
    (p.move m).stage? t = some (.publishing k h d') ∧ k.registry = n

theorem Sound.stage?_steps_of_still {u : Nat} (hp : p.Sound) (hs : ReflTransGen (Step t) p q)
    (hu : p.stage? u = some s) (hstill : s.IsStill) : q.stage? u = some s := by
  induction hs with
  | refl => exact hu
  | tail hsteps hstep ih => exact (hp.steps hsteps).stage?_step_of_still hstep ih hstill

/-- A task that is not there or waits for a permit has no turns of its own. -/
theorem Step.eq_of_idle (hs : Step t p q)
    (hidle : ∀ s, p.stage? t = some s → ∃ o d, s = .queued o d) : ∃ ready, q = { p with ready } := by
  cases hs with
  | turn ready => exact ⟨ready, rfl⟩
  | giveUp _ ht | queue _ _ _ _ ht | grant _ _ _ _ _ ht | permit _ _ ht | refuse _ _ _ ht
  | reserve _ _ _ _ _ ht | refuseBatch _ _ _ ht | beginBatch _ _ _ ht | gather _ ht
  | unpublish _ ht | tryPublish _ _ ht | tryUnpublish _ ht | closeAgain _ ht | close _ ht
  | release _ _ ht | drain ht | take _ _ _ _ ht =>
    obtain ⟨o, d, he⟩ := hidle _ ht
    cases he

/-- **By its own steps** a task comes to publish only from where it was about to. -/
theorem Sound.aboutTo_step (hp : p.Sound) (hs : Step t p q) (h : q.AboutTo t o d) :
    p.AboutTo t o d := by
  have idle : (∀ s, p.stage? t = some s → ∃ o d, s = .queued o d) →
      q.stage? t = p.stage? t := by
    intro hidle
    obtain ⟨ready, rfl⟩ := hs.eq_of_idle hidle
    rfl
  rcases h with h | h
  · rcases hp.came_step hs h with he | ⟨s, -, hn⟩ | ⟨hnone, -⟩
    · exact .inl he
    · cases hn
    · rw [idle (by simp [hnone]), hnone] at h
      cases h
  · rcases hp.came_step hs h with he | ⟨s, hs', hn⟩ | ⟨-, hfresh⟩
    · exact .inr he
    · cases hn with
      | permit => exact .inl hs'
      | letIn =>
        rw [idle (by simp [hs']), hs'] at h
        cases h
    · exact hfresh.elim

/-- The end of a task brings no handle. -/
theorem Sound.handles_finish (hp : p.Sound) (ht : p.stage? t = some s) {p' : Publisher}
    (htasks : p'.tasks = p.tasks) {outcome : Outcome}
    (hh : (p'.finish t outcome).registrar.handles.get? n = some h) :
    p'.registrar.handles.get? n = some h := by
  have hself : p'.parent? t ≠ some t := by
    rw [parent?_congr htasks]
    exact hp.parents.ne_self t
  rcases registrar_finish hself ((stage?_congr htasks t).trans ht) outcome with
    he | ⟨c, d, -, -, -, he, -⟩
  · rwa [he] at hh
  · rw [he] at hh
    cases hh

/-- **A task brings a handle** when it obtains a reservation, with its own options. -/
def Brings (p q : Publisher) (t : Nat) (n : String) (h : Handle) : Prop :=
  ∃ o d k d', p.AboutTo t o d ∧ q.stage? t = some (.publishing k h d') ∧ k.registry = n ∧
    Text.trim o.name = n ∧ h.options = { o with name := n }

theorem Sound.handles_step (hp : p.Sound) (hs : Step t p q)
    (hh : q.registrar.handles.get? n = some h) :
    p.registrar.handles.get? n = some h ∨ Brings p q t n h := by
  cases hs with
  | refuse o d failure ht => exact .inl (hp.handles_finish ht rfl hh)
  | refuseBatch o ds outcome ht ho => exact .inl (hp.handles_finish ht rfl hh)
  | closeAgain td ht hc => exact .inl (hp.handles_finish ht rfl hh)
  | release td outcome ht h0 ho =>
    have htasks : (p.withRegistrar p.registrar.release).tasks = p.tasks := rfl
    cases hp.handles_finish ht htasks hh
  | reserve o o' d k r ht ho hd hr =>
    obtain ⟨hopen, hk, -, hreq⟩ := Registrar.reserve_eq_ok_iff.1 hr
    have hhandles : r.handles = p.registrar.handles := by rw [hreq]
    have hname := RegistryOptions.name_of_canonical? ho
    have hstored : (r.handleFor o').2.handles.get? n = some h := hh
    rw [Registrar.get?_handleFor] at hstored
    split at hstored
    · rename_i hn
      cases hstored
      rcases Registrar.handleFor_fst r o' with hold | ⟨-, hnew⟩
      · left
        rw [← hhandles, hn]
        exact hold
      · right
        refine ⟨o, d, k, _, .inr ht,
          stage?_setStage_self (p := p.withRegistrar (r.handleFor o').2) ht, ?_, ?_, ?_⟩
        · rw [hk, hn, hname]
          exact Text.trim_trim _
        · rw [hn, hname]
        · rw [hnew, hn, hname, (RegistryOptions.canonical?_eq_ok_iff.1 ho).2]
    · exact .inl (hhandles ▸ hstored)
  | _ => exact .inl hh

theorem Sound.handles_steps (hp : p.Sound) (hs : ReflTransGen (Step t) p q)
    (hh : q.registrar.handles.get? n = some h) :
    p.registrar.handles.get? n = some h ∨ Brings p q t n h := by
  -- the task that brings a handle was about to publish at the start of its turn, and publishes still
  induction hs using ReflTransGen.head_induction_on with
  | refl => exact .inl hh
  | head hstep hsteps ih =>
    have hp' := hp.step hstep
    rcases ih hp' with hold | ⟨o, d, k, d', habout, hrest⟩
    · rcases hp.handles_step hstep hold with hold | ⟨o, d, k, d', habout, hstage, hrest⟩
      · exact .inl hold
      · exact .inr ⟨o, d, k, d', habout, hp'.stage?_steps_of_still hsteps hstage trivial, hrest⟩
    · exact .inr ⟨o, d, k, d', hp.aboutTo_step hstep habout, hrest⟩

theorem Sound.handles_reply (hp : p.Sound) (hs : Reply t p q)
    (hh : q.registrar.handles.get? n = some h) : p.registrar.handles.get? n = some h := by
  cases hs with
  | commit k g d record ht =>
    have hh := hp.handles_finish ht (by simp) hh
    rwa [registrar_withRegistered] at hh
  | lose k g d outcome ht ho =>
    have hh := hp.handles_finish ht (by simp) hh
    rwa [registrar_wakeIdle] at hh
  | remove g ht =>
    have hh := hp.handles_finish ht (by simp) hh
    rwa [registrar_withdraw, registrar_withRegistrar, Registrar.handles_unregister] at hh
  | keep g cause ht => exact hp.handles_finish ht rfl hh
  | tried s outcome ht hs ho => exact hp.handles_finish ht rfl hh

/-- **A move brings a handle** to a registry only when a publish obtains a reservation in it. -/
theorem Owned.handles_move (hp : p.Owned) (hm : m.isOwn = true)
    (hh : (p.move m).registrar.handles.get? n = some h) :
    p.registrar.handles.get? n = some h ∨
      ∃ o, Obtains p m n o ∧ Text.trim o.name = n ∧ h.options = { o with name := n } := by
  cases m with
  | ask request => exact .inl hh
  | abandon t =>
    left
    rw [Publisher.move, abandon] at hh
    split at hh <;> exact hh
  | run t =>
    rcases hp.sound.handles_steps (run_steps p t) hh with
      hold | ⟨o, d, k, d', habout, hstage, hk, hname, hoptions⟩
    · exact .inl hold
    · exact .inr ⟨o, ⟨t, d, k, h, d', rfl, habout, hstage, hk⟩, hname, hoptions⟩
  | answerPublish t answer =>
    left
    rcases answerPublish_reply p t answer with he | hs
    · rwa [Publisher.move, he] at hh
    · exact hp.sound.handles_reply hs hh
  | answerUnpublish t answer =>
    left
    rcases answerUnpublish_reply p t answer with he | hs
    · rwa [Publisher.move, he] at hh
    · exact hp.sound.handles_reply hs hh
  | reserve | drop | register | unregister | newHandle | handleFor => cases hm

/-! ## First uses -/

/-- **The first publish** to a registry to obtain a reservation in a run has these options. -/
def FirstUse (p : Publisher) (ms : List Move) (n : String) (o : RegistryOptions) : Prop :=
  ∃ i m, ms[i]? = some m ∧ Obtains (p.moves (ms.take i)) m n o ∧
    ∀ j m' o', j < i → ms[j]? = some m' → ¬ Obtains (p.moves (ms.take j)) m' n o'

theorem moves_take_succ {i : Nat} (hm : ms[i]? = some m) :
    p.moves (ms.take (i + 1)) = (p.moves (ms.take i)).move m := by
  rw [List.take_add_one, hm, Option.toList_some, moves_concat]

/-- The options of a publish that obtains a reservation are those that it was asked for with. -/
theorem Obtains.unique {o' : RegistryOptions} (h : Obtains p m n o) (h' : Obtains p m n o') :
    o = o' := by
  obtain ⟨t, d, k, g, d₁, rfl, habout, -⟩ := h
  obtain ⟨t', d', k', g', d₁', he, habout', -⟩ := h'
  cases he
  rcases habout with ha | ha <;> rcases habout' with hb | hb <;> cases ha.symm.trans hb <;> rfl

/-- There is one first use only. -/
theorem FirstUse.unique {o' : RegistryOptions} (h : FirstUse p ms n o) (h' : FirstUse p ms n o') :
    o = o' := by
  obtain ⟨i, m, hm, hobtains, hfirst⟩ := h
  obtain ⟨i', m', hm', hobtains', hfirst'⟩ := h'
  rcases Nat.lt_trichotomy i i' with hlt | rfl | hgt
  · exact absurd hobtains (hfirst' i m o hlt hm)
  · cases hm.symm.trans hm'
    exact hobtains.unique hobtains'
  · exact absurd hobtains' (hfirst i' m' o' hgt hm')

/-- A first use is one of every longer run. -/
theorem FirstUse.append (h : FirstUse p ms n o) (ms' : List Move) :
    FirstUse p (ms ++ ms') n o := by
  obtain ⟨i, m, hm, hobtains, hfirst⟩ := h
  have hlt : i < ms.length := (List.getElem?_eq_some_iff.1 hm).1
  refine ⟨i, m, by rw [List.getElem?_append_left hlt, hm], ?_, fun j m' o' hj hm' => ?_⟩
  · rwa [List.take_append_of_le_length (by omega)]
  · rw [List.getElem?_append_left (by omega)] at hm'
    rw [List.take_append_of_le_length (by omega)]
    exact hfirst j m' o' hj hm'

/-- **What is kept of a handle**: it is stored for good, or the registrar is released. -/
theorem Owned.kept_handle (hp : p.Owned) (hlast : p.registrar.ShutsLast)
    (hms : ∀ m ∈ ms, m.isOwn = true) (hh : p.registrar.handles.get? n = some h) :
    (p.moves ms).registrar.handles.get? n = some h ∨ (p.moves ms).registrar.Bare := by
  have hchanges := hp.changes_moves hms
  rcases hchanges.keeps.handle n h hh with hstored | hshut
  · exact .inl hstored
  · exact .inr (hchanges.shutsLast hlast (List.ne_nil_of_mem hshut))

/-- After a publish has obtained a reservation its registry has a handle. -/
theorem Owned.handle_of_obtains (hp : p.Owned) (hm : m.isOwn = true) (h : Obtains p m n o) :
    ∃ g, (p.move m).registrar.handles.get? n = some g := by
  obtain ⟨t, d, k, g, d', -, -, hstage, rfl⟩ := h
  exact ⟨g, ((hp.move hm).sound.fits t _ hstage).2.2⟩

/-- Once a publish has obtained a reservation, its registry has a handle until the registrar is
released. -/
theorem Owned.kept_obtains (hp : p.Owned) (hlast : p.registrar.ShutsLast)
    (hms : ∀ m ∈ ms, m.isOwn = true) {i : Nat} (hm : ms[i]? = some m)
    (hobtains : Obtains (p.moves (ms.take i)) m n o) :
    (∃ h, (p.moves ms).registrar.handles.get? n = some h) ∨ (p.moves ms).registrar.Bare := by
  have hown : ∀ i, ∀ m' ∈ ms.take i, m'.isOwn = true := fun i m' hm' =>
    hms m' (List.mem_of_mem_take hm')
  have hrest : ∀ m' ∈ ms.drop (i + 1), m'.isOwn = true := fun m' hm' =>
    hms m' (List.mem_of_mem_drop hm')
  have hlast' := (hp.changes_moves (hown (i + 1))).shutsLast hlast
  obtain ⟨g, hg⟩ := (hp.moves (hown i)).handle_of_obtains (hms m (List.mem_of_getElem? hm)) hobtains
  rw [← moves_take_succ hm] at hg
  have hkept := (hp.moves (hown (i + 1))).kept_handle hlast' hrest hg
  rw [← moves_append, List.take_append_drop] at hkept
  exact hkept.imp_left fun hstored => ⟨g, hstored⟩

/-- **A handle that is stored** has the options of the first use of its registry. -/
theorem Owned.firstUse (hp : p.Owned) (hlast : p.registrar.ShutsLast)
    (hnew : p.registrar.handles = {}) (hms : ∀ m ∈ ms, m.isOwn = true)
    (hh : (p.moves ms).registrar.handles.get? n = some h) :
    ∃ o, FirstUse p ms n o ∧ Text.trim o.name = n ∧ h.options = { o with name := n } := by
  induction ms using List.reverseRecOn generalizing h with
  | nil =>
    rw [show (p.moves []).registrar.handles = {} from hnew] at hh
    cases hh
  | append_singleton ms m ih =>
    have hpast : ∀ m' ∈ ms, m'.isOwn = true := fun m' hm' => hms m' (List.mem_append_left _ hm')
    have hm : m.isOwn = true := hms m (by simp)
    have hmoved := hp.moves hpast
    rw [moves_concat] at hh
    have hchanges := hmoved.sound.changes_move (Move.not_isDirect_of_isOwn hm)
    cases hold : (p.moves ms).registrar.handles.get? n with
    | some g =>
      -- the handle is the one that was there
      obtain ⟨o, hfirst, hrest⟩ := ih hpast hold
      have honly : ∀ m' ∈ [m], m'.isOwn = true := by simpa using hm
      rcases hmoved.kept_handle ((hp.changes_moves hpast).shutsLast hlast) honly hold with
        hstored | hbare
      · cases hstored.symm.trans hh
        exact ⟨o, hfirst.append [m], hrest⟩
      · rw [show ((p.moves ms).move m).registrar.handles = {} from hbare.handles] at hh
        cases hh
    | none =>
      rcases hmoved.handles_move hm hh with hstored | ⟨o, hobtains, hrest⟩
      · cases hold.symm.trans hstored
      · have hopen := hchanges.open_of_new hold hh
        refine ⟨o, ⟨ms.length, m, by simp, by simpa using hobtains, fun j m' o' hj hm' => ?_⟩, hrest⟩
        rw [List.getElem?_append_left hj] at hm'
        rw [List.take_append_of_le_length hj.le]
        -- whoever had obtained one before would have left a handle, or a registrar that is closed
        intro hobtains'
        rcases hp.kept_obtains hlast hpast hm' hobtains' with ⟨g, hg⟩ | hbare
        · cases hold.symm.trans hg
        · cases hopen.symm.trans hbare.closed

/-! ## At all times -/

/-- **The tables of a registrar agree** after a list of moves. -/
structure Represented (p₀ : Publisher) (ms : List Move) : Prop where
  /-- The publisher signs with its id. -/
  signs : (p₀.moves ms).registrar.publisher = p₀.registrar.publisher
  /-- A registration stands under its own key, whose names are trimmed and not empty. It is signed by
  the publisher, and its handle is the one stored for the registry, which is open. -/
  slot : ∀ k g, (p₀.moves ms).registrar.slots.get? k = some (.live g) →
    k.IsCanonical ∧ g.key = k ∧ g.publisher = p₀.registrar.publisher ∧
      (p₀.moves ms).registrar.Serves k.registry g.handle
  /-- A handle stands under its own name, is open, and has the options of the first publish to its
  registry that obtained a reservation, but for the blanks around the name. -/
  handle : ∀ n h, (p₀.moves ms).registrar.handles.get? n = some h →
    (p₀.moves ms).registrar.Serves n h ∧
      ∃ o, FirstUse p₀ ms n o ∧ Text.trim o.name = n ∧ h.options = { o with name := n }
  /-- Such a handle stays until the registrar is released, whatever became of the publish. -/
  kept : ∀ n o, FirstUse p₀ ms n o →
    (∃ h, (p₀.moves ms).registrar.handles.get? n = some h ∧ h.options = { o with name := n }) ∨
      (p₀.moves ms).registrar.Bare
  /-- The registrations that are listed are those in the slots. -/
  listed : ∀ g, g ∈ (p₀.moves ms).registrar.registrations ↔
    ∃ k, (p₀.moves ms).registrar.slots.get? k = some (.live g)
  /-- They are in strict order. -/
  ordered : (p₀.moves ms).registrar.registrations.Pairwise fun a b => compare a.key b.key = .lt
  /-- Each of them is found by its names, and its registry is among those with a handle. -/
  found : ∀ g ∈ (p₀.moves ms).registrar.registrations,
    (p₀.moves ms).registrar.find? g.registry g.schema = some g ∧
      g.registry ∈ (p₀.moves ms).registrar.registryNames
  /-- The names of the registries are in strict order. -/
  names : (p₀.moves ms).registrar.registryNames.Pairwise fun a b => compare a b = .lt

theorem Owned.kept_firstUse (hp : p.Owned) (hlast : p.registrar.ShutsLast)
    (hnew : p.registrar.handles = {}) (hms : ∀ m ∈ ms, m.isOwn = true) (hfirst : FirstUse p ms n o) :
    (∃ h, (p.moves ms).registrar.handles.get? n = some h ∧ h.options = { o with name := n }) ∨
      (p.moves ms).registrar.Bare := by
  obtain ⟨i, m, hm, hobtains, -⟩ := id hfirst
  refine (hp.kept_obtains hlast hms hm hobtains).imp_left fun ⟨h, hstored⟩ => ⟨h, hstored, ?_⟩
  obtain ⟨o', hfirst', -, hoptions⟩ := hp.firstUse hlast hnew hms hstored
  rw [hoptions, hfirst'.unique hfirst]

/-- **At all times of every run** of a publisher's own callers the tables of the registrar agree. -/
theorem represented_moves (id : String) (listening : Bool) (limit : Option Nat) (ms : List Move)
    (hms : ∀ m ∈ ms, m.isOwn = true) : Represented (fresh id listening limit) ms := by
  have hstart := owned_fresh id listening limit
  have hlast₀ : (fresh id listening limit).registrar.ShutsLast := fun hne => absurd rfl hne
  have hsigned₀ : (fresh id listening limit).registrar.Signed id :=
    ⟨rfl, fun k g hg => by simp [fresh, Registrar.live?] at hg⟩
  have howned := hstart.moves hms
  have hchanges := hstart.changes_moves hms
  have hsigned := hchanges.signed hsigned₀
  have hlast := hchanges.shutsLast hlast₀
  have serves : ∀ {n h}, ((fresh id listening limit).moves ms).registrar.handles.get? n = some h →
      ((fresh id listening limit).moves ms).registrar.Serves n h :=
    fun hh => ⟨hh, howned.sound.named _ _ hh, hlast.isOpen hh⟩
  refine ⟨hsigned.publisher, fun k g hg => ?_, fun n h hh => ⟨serves hh, ?_⟩, fun n o hfirst => ?_,
    fun g => ?_, howned.tidy.pairwise_registrations, fun g hg => howned.tidy.find? hg,
    Registrar.pairwise_registryNames _⟩
  · have hlive := Registrar.live?_eq_some_iff.2 hg
    obtain ⟨hk, hkey, hstored⟩ := howned.tidy k g hlive
    exact ⟨hk, hkey, hsigned.live k g hlive, serves hstored⟩
  · exact hstart.firstUse hlast₀ rfl hms hh
  · exact hstart.kept_firstUse hlast₀ rfl hms hfirst
  · simp only [Registrar.mem_registrations_iff, Registrar.live?_eq_some_iff]

/-- A publish to a registry obtains a reservation and fails; one with other options comes after it. -/
def twoOptions : List Move :=
  [.ask (.publish { name := " r", announceAddress := some "a" } { schema := ⟨"s", "{}"⟩ }), .run 0,
    .answerPublish 0 (.broken "lost"),
    .ask (.publish { name := "r", announceAddress := some "b" } { schema := ⟨"s", "{}"⟩ }), .run 1,
    .answerPublish 1 (.record ⟨"1", "s", none, {}⟩)]

/-- The handle has the options of the publish that failed. -/
theorem represented_twoOptions :
    (∀ m ∈ twoOptions, m.isOwn = true) ∧
      (((fresh "id" true none).moves twoOptions).registrar.handles.get? "r").map Handle.options =
        some { name := "r", announceAddress := some "a" } ∧
      (((fresh "id" true none).moves twoOptions).registrar.registrations.map (·.serial)) = [1] ∧
      Represented (fresh "id" true none) twoOptions :=
  ⟨by decide, by decide +kernel, by decide +kernel,
    represented_moves "id" true none twoOptions (by decide)⟩

end Publisher
end SchemaHerald
