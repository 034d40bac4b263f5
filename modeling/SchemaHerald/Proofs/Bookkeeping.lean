import SchemaHerald.Proofs.TrimmedNames
import SchemaHerald.Proofs.Turns

/-!
# The registrar and the tasks agree

`Sound p` relates the registrar of a publisher to its tasks: the outstanding reservations are
exactly those of the tasks that publish and of the callers that hold one, every such task has the
handle that is stored for its registry, and a teardown that no longer waits has nothing left to wait
for. It holds at the start and is kept by every move (`Sound.moves`), also by those of callers who
use the registrar directly.
-/
namespace SchemaHerald

/-- What the registrar guarantees to a task at a stage. -/
def Stage.Fits (r : Registrar) : Stage → Prop
  | .publishing k h d => k.IsCanonical ∧ d.name = k.schema ∧ r.handles.get? k.registry = some h
  | .waiting _ => r.closed = true
  | .draining _ => r.closed = true ∧ r.inFlight = 0
  | _ => True

/-- What a stage needs is kept by a registrar that loses no handle, is not opened again, and lets
nothing in once it is closed. -/
theorem Stage.Fits.mono {s : Stage} {r r' : Registrar} (h : s.Fits r)
    (hh : ∀ n h, r.handles.get? n = some h → r'.handles.get? n = some h)
    (hc : r.closed = true → r'.closed = true)
    (h0 : r.closed = true → r.inFlight = 0 → r'.inFlight = 0) : s.Fits r' := by
  cases s with
  | publishing k h' d => exact ⟨h.1, h.2.1, hh _ _ h.2.2⟩
  | waiting td => exact hc h
  | draining d => exact ⟨hc h.1, h0 h.1 h.2⟩
  | _ => trivial

namespace Publisher

variable {p q : Publisher} {t : Nat} {s s' : Stage} {r : Registrar} {ks : List Key}

/-- The keys that tasks are publishing, in the order of the tasks. -/
def flights (p : Publisher) : List Key := p.tasks.filterMap (·.stage.key?)

/-- The keys for which a reservation is out. -/
def claims (p : Publisher) : List Key := p.held ++ p.flights

/-- **The registrar and the tasks agree.** -/
structure Sound (p : Publisher) : Prop where
  claimed : p.registrar.Claimed p.claims
  named : ∀ n h, p.registrar.handles.get? n = some h → h.name = n
  parents : p.Rooted
  fits : ∀ t s, p.stage? t = some s → s.Fits p.registrar

/-! ## The keys that tasks publish -/

theorem mem_flights_iff {k : Key} :
    k ∈ p.flights ↔ ∃ t s, p.stage? t = some s ∧ s.key? = some k := by
  simp only [flights, List.mem_filterMap, stage?, Option.map_eq_some_iff]
  constructor
  · rintro ⟨task, hmem, hk⟩
    obtain ⟨t, ht⟩ := List.mem_iff_getElem?.1 hmem
    exact ⟨t, task.stage, ⟨task, ht, rfl⟩, hk⟩
  · rintro ⟨t, s, ⟨task, ht, rfl⟩, hk⟩
    exact ⟨task, List.mem_iff_getElem?.2 ⟨t, ht⟩, hk⟩

theorem flights_congr (h : q.tasks = p.tasks) : q.flights = p.flights := by
  unfold flights
  rw [h]

/-- The keys are the same when no task has another key than before. -/
theorem flights_eq_of_keys (h : ∀ u, (q.stage? u).map Stage.key? = (p.stage? u).map Stage.key?) :
    q.flights = p.flights := by
  have hmap : q.tasks.map (·.stage.key?) = p.tasks.map (·.stage.key?) := by
    refine List.ext_getElem? fun u => ?_
    have hu := h u
    simp only [stage?, Option.map_map] at hu
    rw [List.getElem?_map, List.getElem?_map]
    exact hu
  have hflights : ∀ p : Publisher, p.flights = (p.tasks.map (·.stage.key?)).filterMap id := by
    intro p
    simp [flights, List.filterMap_map]
  rw [hflights, hflights, hmap]

/-- A task that changes its stage gives its old key up and takes its new one. -/
theorem flights_setStage (h : p.stage? t = some s) (s' : Stage) :
    ((p.setStage t s').flights ++ s.key?.toList).Perm (p.flights ++ s'.key?.toList) := by
  obtain ⟨parent, ht⟩ := stage?_eq_some_iff.1 h
  obtain ⟨hlt, hget⟩ := List.getElem?_eq_some_iff.1 ht
  obtain ⟨before, task, after, htasks, hlen, hmod⟩ :=
    List.exists_of_modify (fun task : Task => { task with stage := s' }) hlt
  have hs : task.stage = s := by
    have hmid : p.tasks[t]? = some task := by simp [htasks, ← hlen]
    rw [hmid] at ht
    rw [Option.some.inj ht]
  have hbefore : p.flights =
      before.filterMap (·.stage.key?) ++ (s.key?.toList ++ after.filterMap (·.stage.key?)) := by
    rw [flights, htasks, List.filterMap_append, List.filterMap_cons, hs]
    cases s.key? <;> rfl
  have hafter : (p.setStage t s').flights =
      before.filterMap (·.stage.key?) ++ (s'.key?.toList ++ after.filterMap (·.stage.key?)) := by
    rw [flights, setStage, hmod, List.filterMap_append, List.filterMap_cons]
    cases s'.key? <;> rfl
  rw [hbefore, hafter, List.perm_iff_count]
  intro k
  simp only [List.count_append]
  omega

theorem claims_setStage (h : p.stage? t = some s) (hk : s'.key? = s.key?) :
    (p.setStage t s').claims.Perm p.claims := by
  have hf := flights_setStage h s'
  rw [hk, List.perm_append_right_iff] at hf
  exact List.Perm.append_left _ hf

theorem claims_setStage_take {k : Key} (h : p.stage? t = some s) (hs : s.key? = none)
    (hk : s'.key? = some k) : (p.setStage t s').claims.Perm (k :: p.claims) := by
  have hf := flights_setStage h s'
  rw [hs, hk, Option.toList_none, List.append_nil] at hf
  refine (List.Perm.append_left p.held hf).trans ?_
  rw [← List.append_assoc]
  exact List.perm_append_singleton k _

theorem claims_setStage_give {k : Key} (h : p.stage? t = some s) (hs : s.key? = some k)
    (hk : s'.key? = none) : (p.setStage t s').claims.Perm (p.claims.erase k) := by
  have hf := flights_setStage h s'
  rw [hs, hk, Option.toList_none, List.append_nil] at hf
  have hall : (k :: (p.setStage t s').claims).Perm p.claims := by
    refine (List.perm_append_singleton k _).symm.trans ?_
    rw [claims, List.append_assoc]
    exact List.Perm.append_left _ hf
  have herase := hall.erase k
  rwa [List.erase_cons_head] at herase

/-! ## One operation at a time -/

/-- Turns, the journal and the listener do not matter. -/
theorem Sound.congr (h : p.Sound) (hr : q.registrar = p.registrar) (hh : q.held = p.held)
    (ht : q.tasks = p.tasks) : q.Sound where
  claimed := by
    rw [hr, claims, hh, flights_congr ht]
    exact h.claimed
  named := by rw [hr]; exact h.named
  parents u c hu := h.parents u c (by rwa [parent?_congr ht] at hu)
  fits u s hu := by
    rw [hr]
    exact h.fits u s (by rwa [stage?_congr ht] at hu)

theorem Sound.withRegistrar (h : p.Sound) (hc : r.Claimed p.claims)
    (hn : ∀ n h, r.handles.get? n = some h → h.name = n)
    (hf : ∀ t s, p.stage? t = some s → s.Fits r) : (p.withRegistrar r).Sound where
  claimed := hc
  named := hn
  parents := h.parents
  fits := hf

/-- A task moves on without taking or giving up a key. -/
theorem Sound.setStage (h : p.Sound) (ht : p.stage? t = some s) (s' : Stage)
    (hk : s'.key? = s.key?) (hf : s'.Fits p.registrar) : (p.setStage t s').Sound where
  claimed := h.claimed.perm (claims_setStage ht hk).symm
  named := h.named
  parents u c hu := h.parents u c (by rwa [parent?_setStage] at hu)
  fits u s hu := by
    by_cases hut : u = t
    · subst hut
      rw [stage?_setStage_self ht] at hu
      cases hu
      exact hf
    · rw [stage?_setStage_of_ne hut] at hu
      exact h.fits u s hu

/-- Releasing is sound when no reservation is out. -/
theorem Sound.release (h : p.Sound) (hc : p.registrar.closed = true)
    (h0 : p.registrar.inFlight = 0) : (p.withRegistrar p.registrar.release).Sound := by
  refine h.withRegistrar (h.claimed.release h0) (fun n h hn => by simp [Registrar.release] at hn)
    fun u s hu => ?_
  have hnone : p.claims = [] := h.claimed.eq_nil h0
  have hfits := h.fits u s hu
  cases s with
  | publishing k g d =>
    have hmem : k ∈ p.claims := List.mem_append_right _ (mem_flights_iff.2 ⟨u, _, hu, rfl⟩)
    rw [hnone] at hmem
    cases hmem
  | waiting td => exact hc
  | draining d => exact ⟨hc, h0⟩
  | _ => trivial

/-- A task that has ended is delivered soundly. -/
theorem Sound.finish_of_ended {o : Outcome} (h : p.Sound) (ht : p.stage? t = some (.ended o)) :
    (p.finish t o).Sound := by
  have hself : p.parent? t ≠ some t := h.parents.ne_self t
  have hsame : p.setStage t (.ended o) = p := setStage_same ht
  cases finished_finish hself ht o with
  | alone hp hq =>
    rw [hq, hsame]
    exact h
  | noted c b b' hp hb hn hc hended hu hq =>
    -- who changes its stage keeps its key, and asks nothing of the registrar at the new one
    have hold : ∀ u s, (p.finish t o).stage? u = some s →
        ∃ s', p.stage? u = some s' ∧ s'.key? = s.key? ∧ (s' = s ∨ s.Fits p.registrar) := by
      intro u s hs
      by_cases hut : u = t
      · subst hut
        rw [hended] at hs
        cases hs
        exact ⟨_, ht, rfl, .inl rfl⟩
      · by_cases huc : u = c
        · subst huc
          rw [hc] at hs
          cases hs
          exact ⟨_, hb, rfl, .inr trivial⟩
        · rcases hu u hut huc with he | ⟨o', d, he, he'⟩
          · exact ⟨s, he ▸ hs, rfl, .inl rfl⟩
          · rw [he'] at hs
            cases hs
            exact ⟨_, he, rfl, .inr trivial⟩
    have hflights : (p.finish t o).flights = p.flights := by
      refine flights_eq_of_keys fun u => ?_
      cases hs : (p.finish t o).stage? u with
      | none =>
        have hlt : ¬ u < p.tasks.length := by
          rw [← hq.length]
          simpa [stage?] using hs
        have hnone : p.stage? u = none := by simpa [stage?] using hlt
        rw [hnone]
      | some s =>
        obtain ⟨s', hs', hk, -⟩ := hold u s hs
        rw [hs', Option.map_some, Option.map_some, hk]
    refine ⟨?_, by rw [hq.registrar]; exact h.named, fun u c hu => ?_, fun u s hs => ?_⟩
    · rw [hq.registrar, claims, hq.held, hflights]
      exact h.claimed
    · exact h.parents u c (by rwa [hq.parent] at hu)
    · obtain ⟨s', hs', -, rfl | hf⟩ := hold u s hs
      · rw [hq.registrar]
        exact h.fits u s' hs'
      · rw [hq.registrar]
        exact hf
  | drained c d hp hd hopen hq =>
    rw [hq, hsame]
    exact h.setStage hd _ rfl (h.fits c (.draining d) hd)
  | released c d hp hd hdone hq =>
    rw [hq, hsame]
    have hfits := h.fits c _ hd
    exact (h.release hfits.1 hfits.2).setStage hd _ rfl trivial

/-- A task that has no key may end. -/
theorem Sound.finish {o : Outcome} (h : p.Sound) (ht : p.stage? t = some s) (hk : s.key? = none) :
    (p.finish t o).Sound := by
  rw [← finish_setStage p t (.ended o)]
  exact (h.setStage ht (.ended o) hk.symm trivial).finish_of_ended (stage?_setStage_self ht)

/-- A task that publishes ends, and its reservation with it. -/
theorem Sound.finish_give {k : Key} {h : Handle} {d : Definition} {o : Outcome} (hp : p.Sound)
    (ht : p.stage? t = some (.publishing k h d)) (hr : r.Claimed (p.claims.erase k))
    (hh : r.handles = p.registrar.handles) (hc : r.closed = p.registrar.closed)
    (hn : r.inFlight = p.registrar.inFlight - 1) (hq : q.registrar = r) (hheld : q.held = p.held)
    (htasks : q.tasks = p.tasks) : (q.finish t o).Sound := by
  have hgive : ((p.withRegistrar r).setStage t (.ended o)).Sound := by
    have hnamed : ∀ n g, r.handles.get? n = some g → g.name = n := hh ▸ hp.named
    refine ⟨hr.perm (claims_setStage_give ht rfl rfl).symm, hnamed,
      fun u c hu => hp.parents u c (by rwa [parent?_setStage] at hu), fun u s hu => ?_⟩
    by_cases hut : u = t
    · subst hut
      rw [stage?_setStage_self (p := p.withRegistrar r) ht] at hu
      cases hu
      trivial
    · rw [stage?_setStage_of_ne hut] at hu
      refine (hp.fits u s hu).mono (fun n g hg => hh ▸ hg) (fun hcl => hc.trans hcl) ?_
      intro _ h0
      exact hn.trans (by rw [h0])
  have hsound : (q.setStage t (.ended o)).Sound :=
    hgive.congr hq hheld (by rw [Publisher.setStage, htasks]; rfl)
  rw [← finish_setStage q t (.ended o)]
  exact hsound.finish_of_ended (stage?_setStage_self ((stage?_congr htasks t).trans ht))

/-- New tasks have no keys, and are parts of tasks that there were before. -/
theorem Sound.append (h : p.Sound) (ts : List Task)
    (hts : ∀ task ∈ ts, task.stage.key? = none ∧ task.stage.Fits p.registrar ∧
      ∀ c, task.parent = some c → c < p.tasks.length) :
    ({ p with tasks := p.tasks ++ ts } : Publisher).Sound := by
  refine ⟨?_, h.named, fun u c hu => ?_, fun u s hu => ?_⟩
  · have hnone : ts.filterMap (·.stage.key?) = [] :=
      List.filterMap_eq_nil_iff.2 fun task htask => (hts task htask).1
    rw [claims, flights, List.filterMap_append, hnone, List.append_nil]
    exact h.claimed
  · rw [parent?_append (p := p) rfl] at hu
    split at hu
    · exact h.parents u c hu
    · obtain ⟨task, htask, hc⟩ := Option.bind_eq_some_iff.1 hu
      have := (hts task (List.mem_of_getElem? htask)).2.2 c hc
      omega
  · rw [stage?_append (p := p) rfl] at hu
    split at hu
    · exact h.fits u s hu
    · obtain ⟨task, htask, rfl⟩ := Option.map_eq_some_iff.1 hu
      exact (hts task (List.mem_of_getElem? htask)).2.1

/-! ## Steps and replies -/

theorem sound_fresh (id : String) (listening : Bool) (limit : Option Nat) :
    (fresh id listening limit).Sound where
  claimed := Registrar.claimed_nil id
  named n h hn := by simp [fresh] at hn
  parents t c ht := by simp [fresh, parent?] at ht
  fits t s ht := by simp [fresh, stage?] at ht

theorem Sound.ask (h : p.Sound) (request : Request) : (p.ask request).Sound :=
  (h.append [{ stage := .asked request }] (by simp [Stage.key?, Stage.Fits])).congr
    rfl rfl rfl

/-- A publish that reserves its key has the handle that is stored for its registry. -/
theorem Sound.reserve {o o' : RegistryOptions} {d : Definition} {k : Key} (h : p.Sound)
    (ht : p.stage? t = some (.permitted o d)) (ho : o.canonical? = .ok o')
    (hd : d.name.isEmpty = false) (hr : p.registrar.reserve o'.name d.name = .ok (k, r)) :
    ((p.withRegistrar (r.handleFor o').2).setStage t
      (.publishing k (r.handleFor o').1 (d.stamp r.publisher))).Sound := by
  obtain ⟨hopen, hk, hfree, hreq⟩ := Registrar.reserve_eq_ok_iff.1 hr
  have hhandles : r.handles = p.registrar.handles := by rw [hreq]
  have hnamed : ∀ n g, r.handles.get? n = some g → g.name = n := hhandles ▸ h.named
  refine ⟨?_, Registrar.named_handleFor hnamed,
    fun u c hu => h.parents u c (by rwa [parent?_setStage] at hu), fun u s hu => ?_⟩
  · have hclaimed := (h.claimed.reserve hr).congr (Registrar.slots_handleFor o')
      (Registrar.inFlight_handleFor o')
    exact hclaimed.perm (claims_setStage_take (p := p.withRegistrar (r.handleFor o').2) ht rfl rfl).symm
  · by_cases hut : u = t
    · subst hut
      rw [stage?_setStage_self (p := p.withRegistrar (r.handleFor o').2) ht] at hu
      cases hu
      refine ⟨hk ▸ RegistryOptions.isCanonical_of_canonical? ho hd, ?_, ?_⟩
      · rw [Definition.name_stamp, hk]
        exact d.trim_name.symm
      · have hname : k.registry = o'.name := by
          rw [hk, RegistryOptions.name_of_canonical? ho]
          exact Text.trim_trim _
        simp only [registrar_setStage, registrar_withRegistrar, Registrar.get?_handleFor]
        rw [if_pos hname]
    · rw [stage?_setStage_of_ne hut] at hu
      refine (h.fits u s hu).mono (fun n g hg => ?_) ?_ ?_
      · exact Registrar.get?_handleFor_of_some (hhandles ▸ hg)
      -- no task closes a registrar that is open
      all_goals
        intro hc
        rw [hopen] at hc
        cases hc

/-- **A step** keeps registrar and tasks in agreement. -/
theorem Sound.step (h : p.Sound) (hs : Step t p q) : q.Sound := by
  cases hs with
  | turn ready => exact h.congr rfl rfl rfl
  | giveUp b ht => exact h.setStage ht _ rfl trivial
  | queue o d c b ht hp hb h0 =>
    have hne : t ≠ c := fun he => by rw [← he, ht] at hb; cases hb
    exact (h.setStage hb (.gathering { b with queue := b.queue ++ [t] }) rfl trivial).setStage
      ((stage?_setStage_of_ne hne).trans ht) (.queued o d) rfl trivial
  | grant o d c b n ht hp hb hn =>
    have hne : t ≠ c := fun he => by rw [← he, ht] at hb; cases hb
    exact (h.setStage hb (.gathering { b with permits := some n }) rfl trivial).setStage
      ((stage?_setStage_of_ne hne).trans ht) (.permitted o d) rfl trivial
  | permit o d ht hfree => exact h.setStage ht _ rfl trivial
  | refuse o d failure ht => exact h.finish ht rfl
  | reserve o o' d k r ht ho hd hr => exact (h.reserve ht ho hd hr).congr rfl rfl rfl
  | refuseBatch o ds outcome ht ho => exact h.finish ht rfl
  | beginBatch o o' ds ht hne ho =>
    have hlt := lt_length_of_stage? ht
    have happend : ({ p with tasks := p.tasks ++ memberTasks t o' ds } : Publisher).Sound := by
      refine h.append _ fun task htask => ?_
      obtain ⟨d, -, rfl⟩ := List.mem_map.1 htask
      refine ⟨rfl, trivial, fun c hc => ?_⟩
      rw [← Option.some.inj hc]
      exact hlt
    have ht' := stage?_append_of_some
      (q := { p with tasks := p.tasks ++ memberTasks t o' ds }) rfl ht
    exact (happend.setStage ht' (.gathering (p.newBatch o' ds)) rfl trivial).congr rfl rfl rfl
  | gather b ht hb ha => exact h.setStage ht _ rfl trivial
  | unpublish g ht => exact (h.setStage ht (.unpublishing g) rfl trivial).congr rfl rfl rfl
  | tryPublish g d ht =>
    exact (h.setStage ht (.tryingPublish g d) rfl trivial).congr rfl rfl rfl
  | tryUnpublish g ht =>
    exact (h.setStage ht (.tryingUnpublish g) rfl trivial).congr rfl rfl rfl
  | closeAgain td ht hc => exact h.finish ht rfl
  | close td ht hc =>
    have hclosed : (p.withRegistrar p.registrar.close).Sound :=
      h.withRegistrar (h.claimed.congr rfl rfl) h.named fun u s hu =>
        (h.fits u s hu).mono (fun _ _ hg => hg) (fun _ => rfl) (fun _ h0 => h0)
    exact hclosed.setStage ht _ rfl rfl
  | release td outcome ht h0 ho => exact (h.release (h.fits t _ ht) h0).finish ht rfl
  | drain ht h0 hne =>
    have hfits : p.registrar.closed = true := h.fits t _ ht
    exact (h.congr (q := { p with ready := t :: p.ready }) rfl rfl rfl).setStage ht _ rfl ⟨hfits, h0⟩
  | take d g rest ready ht hr =>
    have hlt := lt_length_of_stage? ht
    have happend := h.append [{ stage := .unpublishing g, parent := some t }]
      (by simp [Stage.key?, Stage.Fits, hlt])
    have ht' := stage?_append_of_some
      (q := { p with tasks := p.tasks ++ [{ stage := .unpublishing g, parent := some t }] }) rfl ht
    exact (happend.setStage ht'
      (.draining { rest, removals := d.removals ++ [⟨p.tasks.length, g, none⟩] }) rfl
      (h.fits t (.draining d) ht)).congr rfl rfl rfl

/-- **A reply** keeps registrar and tasks in agreement. -/
theorem Sound.reply (h : p.Sound) (hs : Reply t p q) : q.Sound := by
  cases hs with
  | commit k g d record ht =>
    have hmem : k ∈ p.claims := List.mem_append_right _ (mem_flights_iff.2 ⟨t, _, ht, rfl⟩)
    have hclaimed := h.claimed.register hmem record g p.listening
    exact h.finish_give (q := p.withRegistered k record g) ht hclaimed rfl rfl rfl (by simp)
      (by simp) (by simp)
  | lose k g d outcome ht ho =>
    have hmem : k ∈ p.claims := List.mem_append_right _ (mem_flights_iff.2 ⟨t, _, ht, rfl⟩)
    exact h.finish_give ht (h.claimed.abandon hmem) rfl rfl rfl (by simp) (by simp) (by simp)
  | remove g ht =>
    have hremoved : (p.withRegistrar (p.registrar.unregister g)).Sound := by
      refine h.withRegistrar h.claimed.unregister (by simpa using h.named) fun u s hu => ?_
      refine (h.fits u s hu).mono ?_ ?_ ?_ <;> simp
    have hsound := hremoved.congr (q := (p.withRegistrar (p.registrar.unregister g)).withdraw g)
      (by simp) (by simp) (by simp)
    exact hsound.finish ((stage?_congr (by simp) t).trans ht) rfl
  | keep g cause ht => exact h.finish ht rfl
  | tried s outcome ht hs ho =>
    refine h.finish ht ?_
    rcases hs with ⟨_, _, rfl⟩ | ⟨_, rfl⟩ <;> rfl

theorem Sound.steps (h : p.Sound) (hs : Relation.ReflTransGen (Step t) p q) : q.Sound := by
  induction hs with
  | refl => exact h
  | tail _ hstep ih => exact ih.step hstep

/-! ## Moves -/

/-- A caller who holds a reservation gives it up. -/
theorem Sound.giveHeld {k : Key} (h : p.Sound) (hk : k ∈ p.held)
    (hr : r.Claimed (p.claims.erase k)) (hh : r.handles = p.registrar.handles)
    (hc : r.closed = p.registrar.closed) (hn : r.inFlight = p.registrar.inFlight - 1) :
    ({ p with registrar := r, held := p.held.erase k } : Publisher).Sound where
  claimed := by
    rw [claims, List.erase_append_left _ hk] at hr
    exact hr
  named := hh ▸ h.named
  parents := h.parents
  fits u s hu := by
    refine (h.fits u s hu).mono (fun n g hg => hh ▸ hg) (fun hcl => hc.trans hcl) ?_
    intro _ h0
    exact hn.trans (by rw [h0])

/-- A direct use of the registrar keeps it in agreement with the tasks. -/
theorem Sound.direct (h : p.Sound) {m : Move} (hm : m.isDirect = true) : (p.move m).Sound := by
  cases m with
  | reserve registry schema =>
    simp only [Publisher.move, Publisher.reserve]
    cases hr : p.registrar.reserve registry schema with
    | error failure => exact h
    | ok made =>
      obtain ⟨k, r⟩ := made
      obtain ⟨hopen, -, -, hreq⟩ := Registrar.reserve_eq_ok_iff.1 hr
      have hhandles : r.handles = p.registrar.handles := by rw [hreq]
      refine ⟨h.claimed.reserve hr, hhandles ▸ h.named, h.parents, fun u s hu => ?_⟩
      refine (h.fits u s hu).mono (fun n g hg => hhandles ▸ hg) ?_ ?_
      all_goals
        intro hc
        rw [hopen] at hc
        cases hc
  | drop k =>
    simp only [Publisher.move, drop]
    split
    · rename_i hk
      have hk : k ∈ p.held := List.contains_iff_mem.1 hk
      have hclaimed := h.claimed.abandon (List.mem_append_left _ hk)
      exact (h.giveHeld hk hclaimed rfl rfl rfl).congr (by simp) (by simp) (by simp)
    · exact h
  | register k record handle =>
    simp only [Publisher.move, Publisher.register]
    split
    · rename_i q hq
      split at hq
      · rename_i hk
        have hk : k ∈ p.held := List.contains_iff_mem.1 hk
        have hclaimed := h.claimed.register (List.mem_append_left _ hk) record handle true
        cases hq
        exact (h.giveHeld hk hclaimed rfl rfl rfl).congr (by simp) (by simp) (by simp)
      · cases hq
    · exact h
  | unregister g =>
    refine (h.withRegistrar (r := p.registrar.unregister g) h.claimed.unregister
      (by simpa using h.named) fun u s hu => ?_).congr rfl rfl rfl
    refine (h.fits u s hu).mono ?_ ?_ ?_ <;> simp
  | newHandle options =>
    exact (h.withRegistrar (r := (p.registrar.newHandle options).2) (h.claimed.congr rfl rfl)
      h.named fun u s hu => (h.fits u s hu).mono (fun _ _ hg => hg) id fun _ h0 => h0).congr
        rfl rfl rfl
  | handleFor options =>
    refine (h.withRegistrar (r := (p.registrar.handleFor options).2)
      (h.claimed.congr (Registrar.slots_handleFor options) (Registrar.inFlight_handleFor options))
      (Registrar.named_handleFor h.named) fun u s hu => ?_).congr rfl rfl rfl
    exact (h.fits u s hu).mono (fun n g hg => Registrar.get?_handleFor_of_some hg) (by simp)
      (by simp)
  | ask | abandon | run | answerPublish | answerUnpublish => cases hm

/-- **A move** keeps registrar and tasks in agreement, whoever makes it. -/
theorem Sound.move (h : p.Sound) (m : Move) : (p.move m).Sound :=
  move_induction m (fun request _ => h.ask request) (fun _ _ _ hs hq => hq.step hs)
    (fun _ _ hs => h.reply hs) h.direct h

/-- **At all times** registrar and tasks agree. -/
theorem Sound.moves (h : p.Sound) (ms : List Move) : (p.moves ms).Sound := by
  induction ms generalizing p with
  | nil => exact h
  | cons m ms ih => exact ih (h.move m)

end Publisher
end SchemaHerald
