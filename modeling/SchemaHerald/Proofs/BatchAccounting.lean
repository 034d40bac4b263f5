import SchemaHerald.Proofs.Commitments

/-!
# What a batch gives account of

A batch makes one task for each position of its list, and ends when all of them have. `Stage.Publishes`
says what such a task may come to, whatever else happens in between; `Gathers` says that the batch has
noted it. `batch_accounted` reads off both what the outcome of a batch says: each position has one
entry, a registration that was made for it or what failed, and nothing is missing or counted twice.
-/
namespace SchemaHerald

namespace Stage

/-- **Where the publish of a schema may stand.** -/
def Publishes (o : RegistryOptions) (d : Definition) : Stage → Prop
  | .asked (.publish o' d') | .queued o' d' | .permitted o' d' => o' = o ∧ d' = d
  | .publishing k h _ => k = Key.canonical o.name d.schema.name ∧ h.name = k.registry
  | .ended (.registered g) => g.key = Key.canonical o.name d.schema.name
  | .ended (.failed _) | .ended (.broken _) => True
  | _ => False

/-- The publish of a schema stays one of that schema, under the same key. -/
theorem Publishes.next {o : RegistryOptions} {d : Definition} {s s' : Stage} (h : s.Publishes o d)
    (hn : s.Next s') : s'.Publishes o d := by
  cases hn with
  | queue | permit | letIn => exact h
  | refuse => trivial
  | reserve o' d' k handle d'' hk hcanonical hh hd =>
    obtain ⟨rfl, rfl⟩ := h
    exact ⟨hk, hh⟩
  | commit k handle d' g hs hh =>
    obtain ⟨rfl, hname⟩ := h
    have hkey : g.key = ⟨handle.name, g.schema⟩ := by
      rw [← hh]
      rfl
    show g.key = _
    rw [hkey, hname, hs]
  | lose k handle d' outcome ho => rcases ho with ⟨_, rfl⟩ | ⟨_, rfl⟩ <;> trivial
  | _ => exact h.elim

theorem Publishes.leads {o : RegistryOptions} {d : Definition} {s s' : Stage} (h : s.Publishes o d)
    (hl : s.Leads s') : s'.Publishes o d := by
  induction hl with
  | refl => exact h
  | tail _ hn ih => exact ih.next hn

end Stage

namespace Registrar

variable {r r' : Registrar}

/-- Serial numbers are not given back. -/
theorem Change.made_le (hc : r.Change r') : r.made ≤ r'.made := by
  cases hc with
  | reserve o schema k r₁ hr =>
    rw [(reserve_eq_ok_iff.1 hr).2.2.2]
    unfold handleFor
    split
    · exact le_rfl
    · exact Nat.le_succ _
  | commit => exact Nat.le_succ _
  | unregister g => rw [made_unregister]
  | abandon | close | release => exact le_rfl

theorem Changes.made_le (hc : r.Changes r') : r.made ≤ r'.made := by
  induction hc with
  | refl => exact le_rfl
  | tail _ hstep ih => exact ih.trans hstep.made_le

end Registrar

/-- The text of a batch that failed in part says how many of its schemas did not fail. -/
theorem Failure.message_partialPublish {registry : String} {n m : Nat} {parts : List (Part Failure)}
    (h : m + parts.length = n) :
    (Failure.partialPublish registry n parts).message =
      s!"[{registry}] Published {m} of {n} schemas; failed: " ++ failedNames parts := by
  obtain rfl : m = n - parts.length := Nat.eq_sub_of_add_eq h
  rfl

namespace Batch

/-- The entry that a batch makes for the end of a member. -/
def entry? (b : Batch) (task : Nat) (outcome : Outcome) : Option (Registration ⊕ Part Failure) :=
  match outcome.registration? with
  | some g => some (.inl g)
  | none => (b.part? task outcome).map .inr

/-- All entries of a batch with the positions that they are for, as they came in. -/
def entries (b : Batch) (first : Nat) : List (Nat × (Registration ⊕ Part Failure)) :=
  b.outcomes.filterMap fun e => (b.entry? e.1 e.2).map (e.1 - first, ·)

theorem registrations_eq_entries (b : Batch) (first : Nat) :
    b.registrations = (b.entries first).filterMap (·.2.getLeft?) := by
  rw [registrations, entries, List.filterMap_filterMap]
  refine List.filterMap_congr fun e _ => ?_
  unfold entry?
  cases hr : e.2.registration? with
  | some g => rfl
  | none => cases hp : b.part? e.1 e.2 <;> rfl

theorem parts_eq_entries (b : Batch) (first : Nat) :
    b.parts = (b.entries first).filterMap (·.2.getRight?) := by
  rw [parts, entries, List.filterMap_filterMap]
  refine List.filterMap_congr fun e _ => ?_
  obtain ⟨task, outcome⟩ := e
  unfold entry?
  cases outcome with
  | registered g => rfl
  | _ =>
    dsimp only [Outcome.registration?]
    cases b.part? task _ <;> rfl

end Batch

namespace Publisher

open Relation

variable {p q : Publisher} {t u c : Nat} {s s' : Stage} {o : Outcome} {b : Batch}

/-! ## Serial numbers -/

/-- **Registrations have different serial numbers**, all of which were given out. -/
structure Numbered (p : Publisher) : Prop where
  below : ∀ t g, p.stage? t = some (.ended (.registered g)) → g.serial < p.registrar.made
  inj : ∀ t t' g g', p.stage? t = some (.ended (.registered g)) →
    p.stage? t' = some (.ended (.registered g')) → g.serial = g'.serial → t = t'

theorem Numbered.mono (h : p.Numbered) (hmade : p.registrar.made ≤ q.registrar.made)
    (hold : ∀ t g, q.stage? t = some (.ended (.registered g)) →
      p.stage? t = some (.ended (.registered g))) : q.Numbered where
  below t g ht := Nat.lt_of_lt_of_le (h.below t g (hold t g ht)) hmade
  inj t t' g g' ht ht' := h.inj t t' g g' (hold t g ht) (hold t' g' ht')

theorem Numbered.step (h : p.Numbered) (hsound : p.Sound) (hs : Step t p q) : q.Numbered :=
  h.mono (hsound.changes_step hs).made_le fun _ _ ht => hsound.registered_step hs ht

theorem Numbered.reply (h : p.Numbered) (hsound : p.Sound) (hs : Reply t p q) : q.Numbered := by
  have hmade := (hsound.changes_reply hs).made_le
  -- a registration that was there has a lower number than one that is new
  have hcases : ∀ u g, q.stage? u = some (.ended (.registered g)) →
      p.stage? u = some (.ended (.registered g)) ∨
        u = t ∧ g.serial = p.registrar.made ∧ g.serial < q.registrar.made := by
    intro u g hu
    rcases hsound.registered_reply hs hu with he | ⟨hut, k, handle, d, record, -, hg, hr⟩
    · exact .inl he
    · refine .inr ⟨hut, by rw [hg]; rfl, ?_⟩
      rw [hr, hg]
      exact Nat.lt_succ_self _
  refine ⟨fun u g hu => ?_, fun u u' g g' hu hu' hserial => ?_⟩
  · rcases hcases u g hu with he | ⟨-, -, hlt⟩
    · exact Nat.lt_of_lt_of_le (h.below u g he) hmade
    · exact hlt
  · rcases hcases u g hu with he | ⟨rfl, hnew, -⟩ <;>
      rcases hcases u' g' hu' with he' | ⟨rfl, hnew', -⟩
    · exact h.inj u u' g g' he he' hserial
    · have := h.below u g he
      omega
    · have := h.below u' g' he'
      omega
    · rfl

theorem made_direct {m : Move} (hm : m.isDirect = true) :
    p.registrar.made ≤ (p.move m).registrar.made := by
  cases m with
  | reserve registry schema =>
    simp only [Publisher.move, Publisher.reserve]
    cases hr : p.registrar.reserve registry schema with
    | error failure => exact le_rfl
    | ok made =>
      obtain ⟨k, r⟩ := made
      obtain ⟨-, -, -, rfl⟩ := Registrar.reserve_eq_ok_iff.1 hr
      exact le_rfl
  | drop k =>
    simp only [Publisher.move, drop]
    split
    · rw [registrar_wakeIdle]
      exact le_rfl
    · exact le_rfl
  | register k record handle =>
    simp only [Publisher.move, Publisher.register]
    split
    · rename_i q hq
      split at hq
      · cases hq
        rw [registrar_wakeIdle]
        exact Nat.le_succ _
      · cases hq
    · exact le_rfl
  | unregister g => exact (Registrar.made_unregister g).ge
  | newHandle options => exact Nat.le_succ _
  | handleFor options =>
    show p.registrar.made ≤ (p.registrar.handleFor options).2.made
    unfold Registrar.handleFor
    split
    · exact le_rfl
    · exact Nat.le_succ _
  | ask | abandon | run | answerPublish | answerUnpublish => cases hm

theorem numbered_fresh (id : String) (listening : Bool) (limit : Option Nat) :
    (fresh id listening limit).Numbered := by
  refine ⟨fun t g ht => ?_, fun t t' g g' ht => ?_⟩ <;> simp [fresh, stage?] at ht

theorem Numbered.move (h : p.Numbered) (hsound : p.Sound) (m : Move) : (p.move m).Numbered := by
  have hboth : (p.move m).Sound ∧ (p.move m).Numbered := by
    refine move_induction (P := fun q => q.Sound ∧ q.Numbered) m ?_ ?_ ?_ ?_ ⟨hsound, h⟩
    · exact fun request _ => ⟨hsound.ask request, h.mono le_rfl fun _ _ => ended_of_ask⟩
    · exact fun _ _ _ hs ⟨hq, hnum⟩ => ⟨hq.step hs, hnum.step hq hs⟩
    · exact fun _ _ hs => ⟨hsound.reply hs, h.reply hsound hs⟩
    · refine fun hm => ⟨hsound.direct hm, h.mono (made_direct hm) fun t g ht => ?_⟩
      rwa [stage?_congr (tasks_of_isDirect p hm)] at ht
  exact hboth.2

theorem Numbered.moves (h : p.Numbered) (hsound : p.Sound) (ms : List Move) :
    (p.moves ms).Numbered := by
  induction ms generalizing p with
  | nil => exact h
  | cons m ms ih => exact ih (h.move hsound m) (hsound.move m)

/-! ## A batch from its first turn to its end -/

/-- **The batch of task `c`** waits for its members, or it has ended with what became of them. -/
inductive Gathers (p : Publisher) (c : Nat) (registry : String) (members : List (Nat × String)) :
    Prop
  | underWay (b : Batch) (hc : p.stage? c = some (.gathering b)) (hr : b.registry = registry)
      (hm : b.members = members)
  | hasEnded (b : Batch) (hc : p.stage? c = some (.ended b.outcome)) (hr : b.registry = registry)
      (hm : b.members = members) (hb : b.isComplete = true) (hkept : BatchKept p c b)

/-- What a batch that is complete knows about its members stays true. -/
theorem BatchKept.keep (h : BatchKept p c b) (hb : b.isComplete = true)
    (hparent : ∀ u, q.parent? u = some c ↔ p.parent? u = some c) (hgoes : ∀ u, Goes p q u) :
    BatchKept q c b := by
  refine h.mono hparent fun u hu => .inl ?_
  obtain ⟨o, -, ho⟩ := h.ended hb hu
  obtain ⟨s', hs', hl⟩ := hgoes u _ ho
  rw [hs', hl.eq_of_ended, ho]

variable {registry : String} {members : List (Nat × String)}

theorem Gathers.of_advances (h : Gathers p c registry members) (hkin : p.Kin)
    (hadvances : ∀ u, Advances p q u)
    (hparent : ∀ s, p.stage? c = some s → ¬ s.GetsParts →
      ∀ u, q.parent? u = some c ↔ p.parent? u = some c) : Gathers q c registry members := by
  have hgoes := fun u => (hadvances u).goes
  cases h with
  | underWay b hc hr hm =>
    obtain ⟨s', hs', rfl | hn⟩ := hadvances c _ hc
    · exact .underWay b hs' hr hm
    · cases hn with
      | batch b b' hr' hm' => exact .underWay b' hs' (hr'.trans hr) (hm'.trans hm)
      | gather b hb =>
        exact .hasEnded b hs' hr hm hb (BatchKept.keep (hkin c _ hc) hb (hparent _ hc id) hgoes)
  | hasEnded b hc hr hm hb hkept =>
    obtain ⟨s', hs', rfl | hn⟩ := hadvances c _ hc
    · exact .hasEnded b hs' hr hm hb (hkept.keep hb (hparent _ hc id) hgoes)
    · cases hn

/-- **A move** does not stop a batch. -/
theorem Gathers.move (h : Gathers p c registry members) (hsound : p.Sound) (hkin : p.Kin)
    (m : Move) : Gathers (p.move m) c registry members := by
  have hall : (p.move m).Sound ∧ (p.move m).Kin ∧ Gathers (p.move m) c registry members := by
    refine move_induction (P := fun q => q.Sound ∧ q.Kin ∧ Gathers q c registry members) m
      ?_ ?_ ?_ ?_ ⟨hsound, hkin, h⟩
    · intro request _
      exact ⟨hsound.ask request, hkin.ask hsound request, h.of_advances hkin
        (advances_append (tasks_ask p request)) fun s _ _ u => by rw [parent?_ask]⟩
    · intro t q q' hs ⟨hq, hkinq, hgq⟩
      exact ⟨hq.step hs, hkinq.step hq hs, hgq.of_advances hkinq (hq.advances_step hs)
        fun s hc hnot u => (hq.grown_step hs).parent?_iff hc hnot⟩
    · intro t q hs
      exact ⟨hsound.reply hs, hkin.reply hsound hs, h.of_advances hkin (hsound.advances_reply hs)
        fun s _ _ u => by rw [(hsound.sameShape_reply hs).2]⟩
    · intro hm
      have htasks := tasks_of_isDirect p hm
      exact ⟨hsound.direct hm, hkin.congr htasks, h.of_advances hkin
        (fun u => .of_eq (stage?_congr htasks u)) fun s _ _ u => by rw [parent?_congr htasks]⟩
  exact hall.2.2

theorem Gathers.moves (h : Gathers p c registry members) (hsound : p.Sound) (hkin : p.Kin)
    (ms : List Move) : Gathers (p.moves ms) c registry members := by
  induction ms generalizing p with
  | nil => exact h
  | cons m ms ih => exact ih (h.move hsound hkin m) (hsound.move m) (hkin.move hsound m)

/-- In its first turn a batch begins. -/
theorem run_of_publishAll {options : RegistryOptions} {ds : List Definition} (hready : c ∈ p.ready)
    (hc : p.stage? c = some (.asked (.publishAll options ds))) :
    p.run c = Publisher.beginBatch { p with ready := p.ready.erase c } c options ds := by
  obtain ⟨parent, ht⟩ := stage?_eq_some_iff.1 hc
  simp only [run, List.contains_iff_mem.2 hready, ite_true, ht, begin]

/-- **The first turn of a batch**: it breaks off if there are to be more permits than there can be,
and otherwise has its members made. -/
theorem run_publishAll {options options' : RegistryOptions} {ds : List Definition}
    (hready : c ∈ p.ready) (hc : p.stage? c = some (.asked (.publishAll options ds)))
    (hne : ds ≠ []) (ho : options.canonical? = .ok options') :
    (∃ n, p.limit = some n ∧ Batch.mostPermits < max 1 n ∧
        ∃ message, p.run c = { p with ready := p.ready.erase c }.finish c (.broken message)) ∨
      (p.run c).tasks = (p.withBatch c options' ds).tasks := by
  rw [run_of_publishAll hready hc]
  unfold beginBatch
  rw [if_neg (fun he => hne (List.isEmpty_iff.1 he)), ho]
  dsimp only
  split
  · rename_i hmany
    refine .inl ?_
    cases hl : p.limit with
    | none => simp [hl] at hmany
    | some n =>
      refine ⟨n, rfl, ?_, _, rfl⟩
      simpa [hl] using hmany
  · exact .inr rfl

/-! ## The entries of a batch -/

/-- **What became of the publish of one schema**: a registration under its key, or what failed. -/
inductive Accounts (p : Publisher) (registry schema : String) (task : Nat) :
    Registration ⊕ Part Failure → Prop
  | committed (g : Registration) (ho : p.outcome? task = some (.registered g))
      (hk : g.key = ⟨registry, schema⟩) : Accounts p registry schema task (.inl g)
  | failed (failure : Failure) (ho : p.outcome? task = some (.failed failure)) :
      Accounts p registry schema task (.inr ⟨schema, registry, failure⟩)
  | lost (message : String) (ho : p.outcome? task = some (.broken message)) :
      Accounts p registry schema task (.inr ⟨schema, registry, .taskLost registry schema
        s!"task {task} panicked with message {Text.Quoted.encode message}"⟩)

/-- Lefts and rights, one after the other, are all there is. -/
theorem perm_getLeft_getRight {α β γ : Type} (f : α → γ) (g : β → γ) (es : List (Nat × (α ⊕ β))) :
    ((es.filterMap (·.2.getLeft?)).map f ++ (es.filterMap (·.2.getRight?)).map g).Perm
      (es.map fun e => e.2.elim f g) := by
  induction es with
  | nil => exact .nil
  | cons e es ih =>
    obtain ⟨i, a | b⟩ := e
    · exact ih.cons (f a)
    · exact List.perm_middle.trans (ih.cons (g b))

/-- The members of a batch have the names of its positions. -/
theorem lookup_zip_range' (names : List String) (first i : Nat) :
    ((List.range' first names.length).zip names).lookup (first + i) = names[i]? := by
  induction names generalizing first i with
  | nil => rfl
  | cons name names ih =>
    rw [List.length_cons, List.range'_succ, List.zip_cons_cons, List.lookup_cons]
    cases i with
    | zero => simp
    | succ i =>
      have hne : (first + (i + 1) == first) = false := by
        rw [beq_eq_false_iff_ne]
        omega
      have hshift : first + (i + 1) = first + 1 + i := by omega
      rw [hne, List.getElem?_cons_succ, ← ih (first + 1) i, hshift]

variable {first : Nat} {ds : List Definition} {options : RegistryOptions}

/-- **What a batch that is complete has noted** is an entry for one of its positions. -/
theorem BatchKept.entry (h : BatchKept p c b) (hr : b.registry = options.name)
    (htrim : Text.trim options.name = options.name)
    (hm : b.members = (List.range' first ds.length).zip (ds.map (·.name)))
    (hpublishes : ∀ i d, ds[i]? = some d →
      ∃ s, p.stage? (first + i) = some s ∧ s.Publishes options d)
    (ho : (t, o) ∈ b.outcomes) :
    ∃ i d e, t = first + i ∧ ds[i]? = some d ∧ b.entry? t o = some e ∧
      p.Accounts options.name d.name (first + i) e := by
  obtain ⟨hparent, hstage⟩ := (h.noted t o).1 ho
  have hmem := (h.children t).1 hparent
  rw [hm, List.map_fst_zip (by simp), List.mem_range'_1] at hmem
  obtain ⟨i, rfl⟩ := Nat.exists_eq_add_of_le hmem.1
  have hlt : i < ds.length := by omega
  have hd : ds[i]? = some ds[i] := List.getElem?_eq_getElem hlt
  have hname : b.schemaOf (first + i) = ds[i].name := by
    have hlookup := lookup_zip_range' (ds.map (·.name)) first i
    rw [List.length_map] at hlookup
    rw [Batch.schemaOf, hm, hlookup, List.getElem?_map, hd]
    rfl
  obtain ⟨s, hs, hpub⟩ := hpublishes i _ hd
  rw [hstage] at hs
  cases hs
  have hout := outcome?_eq_some_iff.2 hstage
  refine ⟨i, ds[i], ?_⟩
  cases o with
  | registered g =>
    refine ⟨.inl g, rfl, hd, rfl, .committed g hout ?_⟩
    rw [show g.key = Key.canonical options.name ds[i].schema.name from hpub, Key.canonical, htrim]
    rfl
  | failed failure =>
    refine ⟨.inr ⟨ds[i].name, options.name, failure⟩, rfl, hd, ?_, .failed failure hout⟩
    simp only [Batch.entry?, Outcome.registration?, Batch.part?, hname, hr, Option.map_some]
  | broken message =>
    refine ⟨_, rfl, hd, ?_, .lost message hout⟩
    simp only [Batch.entry?, Outcome.registration?, Batch.part?, hname, hr, Option.map_some]
  | _ => exact hpub.elim

/-- **A batch that is complete has one entry for each position.** -/
theorem BatchKept.positions (h : BatchKept p c b) (hb : b.isComplete = true)
    (hr : b.registry = options.name) (htrim : Text.trim options.name = options.name)
    (hm : b.members = (List.range' first ds.length).zip (ds.map (·.name)))
    (hpublishes : ∀ i d, ds[i]? = some d →
      ∃ s, p.stage? (first + i) = some s ∧ s.Publishes options d) :
    ((b.entries first).map (·.1)).Perm (List.range ds.length) := by
  have hmap : (b.entries first).map (·.1) = (b.outcomes.map (·.1)).map (· - first) := by
    rw [Batch.entries, List.map_filterMap, List.map_map, ← List.filterMap_eq_map]
    refine List.filterMap_congr fun e he => ?_
    obtain ⟨i, d, entry, -, -, hentry, -⟩ := h.entry hr htrim hm hpublishes he
    rw [hentry]
    rfl
  have hperm := h.perm_of_isComplete hb
  rw [hm, List.map_fst_zip (by simp)] at hperm
  rw [hmap]
  refine (hperm.map (· - first)).trans ?_
  rw [List.map_sub_range' le_rfl, Nat.sub_self, List.range_eq_range']

/-- Registrations of a batch have different serial numbers. -/
theorem BatchKept.nodup_serials (h : BatchKept p c b) (hnum : p.Numbered) :
    (b.registrations.map (·.serial)).Nodup := by
  rw [Batch.registrations, List.Nodup, List.pairwise_map, List.pairwise_filterMap]
  refine (List.pairwise_map.1 h.once).imp_of_mem fun {e e'} he he' hne g hg g' hg' hserial => ?_
  have ended : ∀ {e : Nat × Outcome} {g}, e ∈ b.outcomes → e.2.registration? = some g →
      p.stage? e.1 = some (.ended (.registered g)) := by
    intro e g he hg
    obtain ⟨t, o⟩ := e
    rw [((h.noted t o).1 he).2]
    cases o with
    | registered g' =>
      cases hg
      rfl
    | _ => cases hg
  exact hne (hnum.inj _ _ g g' (ended he hg) (ended he' hg') hserial)

/-- **What the outcome of a batch gives account of.** The batch of task `c` was for the schemas `ds`
in a registry, and its members are the tasks from `first` on. -/
structure BatchAccount (p : Publisher) (c first : Nat) (registry : String) (ds : List Definition)
    (gs : List Registration) (parts : List (Part Failure)) (out : Outcome) : Prop where
  /-- There is one task for each position. -/
  tasks : ∀ t, p.parent? t = some c ↔ first ≤ t ∧ t < first + ds.length
  /-- There is one entry for each position, which says what became of its task; the registrations and
  the failures are these entries, as they came in. -/
  entries : ∃ es : List (Nat × (Registration ⊕ Part Failure)),
    (es.map (·.1)).Perm (List.range ds.length) ∧
    (∀ i e, (i, e) ∈ es → ∃ d, ds[i]? = some d ∧ p.Accounts registry d.name (first + i) e) ∧
    gs = es.filterMap (·.2.getLeft?) ∧ parts = es.filterMap (·.2.getRight?)
  /-- No registration is counted twice. -/
  serials : (gs.map (·.serial)).Nodup
  /-- The names of both are the names that were asked for. -/
  names : (gs.map (·.schema) ++ parts.map (·.schema)).Perm (ds.map (·.name))
  /-- All of them are of the registry that was asked for. -/
  registries : (∀ g ∈ gs, g.registry = registry) ∧ ∀ part ∈ parts, part.registry = registry
  /-- The batch gives its registrations if nothing failed, and otherwise what failed. -/
  outcome : (parts = [] ∧ out = .registeredAll gs) ∨
    (parts ≠ [] ∧ out = .failed (.partialPublish registry ds.length parts))
  /-- Not more failed than was asked for. -/
  bound : parts.length ≤ ds.length
  /-- What the text of a failure says to be published are the registrations. -/
  text : (Failure.partialPublish registry ds.length parts).message =
    s!"[{registry}] Published {gs.length} of {ds.length} schemas; failed: " ++
      Failure.failedNames parts

/-- The entries of a list that is shuffled have the names of the list. -/
theorem perm_names {es : List (Nat × (Registration ⊕ Part Failure))}
    (hpos : (es.map (·.1)).Perm (List.range ds.length))
    (hentry : ∀ i e, (i, e) ∈ es →
      ∃ d, ds[i]? = some d ∧ p.Accounts options.name d.name (first + i) e) :
    (es.map fun e => e.2.elim (·.schema) (·.schema)).Perm (ds.map (·.name)) := by
  have hnames : (es.map fun e => e.2.elim (·.schema) (·.schema)) =
      (es.map (·.1)).map fun i => (ds[i]?.map (·.name)).getD "" := by
    rw [List.map_map]
    refine List.map_congr_left fun e he => ?_
    obtain ⟨i, e⟩ := e
    obtain ⟨d, hd, haccount⟩ := hentry i e he
    simp only [Function.comp_apply, hd, Option.map_some, Option.getD_some]
    cases haccount with
    | committed g ho hk => exact congrArg Key.schema hk
    | failed failure ho => rfl
    | lost message ho => rfl
  have hall : (List.range ds.length).map (fun i => (ds[i]?.map (·.name)).getD "") =
      ds.map (·.name) := by
    refine List.ext_getElem (by simp) fun i h₁ h₂ => ?_
    have hlt : i < ds.length := by simpa using h₁
    simp [hlt]
  rw [hnames, ← hall]
  exact hpos.map _

/-- **A batch that is complete gives account** of its positions. -/
theorem BatchKept.account (h : BatchKept p c b) (hnum : p.Numbered) (hb : b.isComplete = true)
    (hr : b.registry = options.name) (htrim : Text.trim options.name = options.name)
    (hm : b.members = (List.range' first ds.length).zip (ds.map (·.name)))
    (hpublishes : ∀ i d, ds[i]? = some d →
      ∃ s, p.stage? (first + i) = some s ∧ s.Publishes options d) :
    p.BatchAccount c first options.name ds b.registrations b.parts b.outcome := by
  have hpos := h.positions hb hr htrim hm hpublishes
  have hentry : ∀ i e, (i, e) ∈ b.entries first →
      ∃ d, ds[i]? = some d ∧ p.Accounts options.name d.name (first + i) e := by
    intro i e he
    obtain ⟨⟨t, o⟩, ho, he'⟩ := List.mem_filterMap.1 he
    obtain ⟨i', d, e', ht, hd, hentry, haccount⟩ := h.entry hr htrim hm hpublishes ho
    rw [hentry, ht, Option.map_some, Nat.add_sub_cancel_left] at he'
    cases he'
    exact ⟨d, hd, haccount⟩
  have hgs := b.registrations_eq_entries first
  have hparts := b.parts_eq_entries first
  have hnames : (b.registrations.map (·.schema) ++ b.parts.map (·.schema)).Perm
      (ds.map (·.name)) := by
    rw [hgs, hparts]
    exact (perm_getLeft_getRight _ _ _).trans (perm_names hpos hentry)
  have hcount : b.registrations.length + b.parts.length = ds.length := by
    have hlen := hnames.length_eq
    simpa using hlen
  have hmembers : b.members.length = ds.length := by
    rw [hm]
    simp
  refine ⟨fun t => ?_, ⟨_, hpos, hentry, hgs, hparts⟩, h.nodup_serials hnum, hnames,
    ⟨fun g hg => ?_, fun part hpart => ?_⟩, ?_, by omega, ?_⟩
  · rw [h.children, hm, List.map_fst_zip (by simp), List.mem_range'_1]
  · rw [hgs] at hg
    obtain ⟨⟨i, e⟩, he, hleft⟩ := List.mem_filterMap.1 hg
    obtain ⟨d, -, haccount⟩ := hentry i e he
    cases haccount with
    | committed g' ho hk =>
      cases hleft
      exact congrArg Key.registry hk
    | failed | lost => cases hleft
  · rw [hparts] at hpart
    obtain ⟨⟨i, e⟩, he, hright⟩ := List.mem_filterMap.1 hpart
    obtain ⟨d, -, haccount⟩ := hentry i e he
    cases haccount with
    | committed => cases hright
    | failed | lost =>
      cases hright
      rfl
  · unfold Batch.outcome
    rw [hmembers, hr]
    split
    · rename_i hfull
      exact .inl ⟨List.eq_nil_of_length_eq_zero (by omega), rfl⟩
    · rename_i hmissing
      refine .inr ⟨fun hnil => hmissing ?_, rfl⟩
      rw [hnil, List.length_nil] at hcount
      exact hcount
  · exact Failure.message_partialPublish hcount

/-- **How a batch begins**: it breaks off if there are to be more permits than there can be, and
otherwise it has a task for each position. -/
theorem Sound.begun (h : p.Sound) {options options' : RegistryOptions}
    {ds : List Definition} (hready : c ∈ p.ready)
    (hc : p.stage? c = some (.asked (.publishAll options ds))) (hne : ds ≠ [])
    (ho : options.canonical? = .ok options') :
    (∃ n message, p.limit = some n ∧ Batch.mostPermits < max 1 n ∧
        (p.run c).outcome? c = some (.broken message)) ∨
      (Gathers (p.run c) c options'.name
          ((List.range' p.tasks.length ds.length).zip (ds.map (·.name))) ∧
        ∀ i d, ds[i]? = some d →
          (p.run c).stage? (p.tasks.length + i) = some (.asked (.publish options' d))) := by
  rcases run_publishAll hready hc hne ho with ⟨n, hn, hmany, message, hrun⟩ | htasks
  · refine .inl ⟨n, message, hn, hmany, ?_⟩
    rw [hrun, outcome?_eq_some_iff]
    have htasks : ({ p with ready := p.ready.erase c } : Publisher).tasks = p.tasks := rfl
    exact h.ended_finish htasks hc _
  · refine .inr ⟨.underWay (p.newBatch options' ds) ?_ rfl rfl, fun i d hd => ?_⟩
    · rw [stage?_congr htasks]
      exact stage?_setStage_self (stage?_append_of_some (p := p) rfl hc)
    · have hlt := lt_length_of_stage? hc
      have hcne : p.tasks.length + i ≠ c := by omega
      rw [stage?_congr htasks, withBatch, stage?_setStage_of_ne hcne, stage?_append (p := p) rfl,
        if_neg (by omega), Nat.add_sub_cancel_left, memberTasks, List.getElem?_map, hd]
      rfl

/-- **A batch gives account of all of its positions.** A batch for schemas in a registry with a name
is asked for, and anything else may happen before, in between and afterwards. When it has ended,
either there were to be more permits than there can be; or it had a turn in which it made a task for
each position, to publish the schema there, and its outcome says what became of each of them. -/
theorem batch_accounted (id : String) (listening : Bool) (limit : Option Nat)
    (past future : List Move) (c : Nat) (options : RegistryOptions) (ds : List Definition)
    (out : Outcome)
    (hask : ((fresh id listening limit).moves past).stage? c =
      some (.asked (.publishAll options ds)))
    (hne : ds ≠ []) (hname : Text.trim options.name ≠ "")
    (hout : ((fresh id listening limit).moves (past ++ future)).outcome? c = some out) :
    (∃ n message, limit = some n ∧ Batch.mostPermits < max 1 n ∧ out = .broken message) ∨
      ∃ before after first gs parts, future = before ++ .run c :: after ∧
        first = ((fresh id listening limit).moves (past ++ before)).tasks.length ∧
        (∀ i d, ds[i]? = some d →
          ((fresh id listening limit).moves (past ++ before ++ [.run c])).stage? (first + i) =
            some (.asked (.publish { options with name := Text.trim options.name } d))) ∧
        ((fresh id listening limit).moves (past ++ future)).BatchAccount c first
          (Text.trim options.name) ds gs parts out := by
  have hsound : ∀ ms, ((fresh id listening limit).moves ms).Sound :=
    (sound_fresh id listening limit).moves
  have hkin : ∀ ms, ((fresh id listening limit).moves ms).Kin :=
    (kin_fresh id listening limit).moves (sound_fresh id listening limit)
  have hnum : ∀ ms, ((fresh id listening limit).moves ms).Numbered :=
    (numbered_fresh id listening limit).moves (sound_fresh id listening limit)
  have ho : options.canonical? = .ok { options with name := Text.trim options.name } :=
    RegistryOptions.canonical?_eq_ok_iff.2 ⟨hname, rfl⟩
  rw [outcome?_eq_some_iff, moves_append] at hout
  -- the batch has begun, or it would have no outcome
  obtain ⟨before, after, rfl, hready, hask'⟩ := (hsound past).first_turn hask fun hidle => by
    rw [hidle] at hout
    cases hout
  rw [← moves_append] at hready hask'
  have hrun : (fresh id listening limit).moves (past ++ before ++ [.run c]) =
      ((fresh id listening limit).moves (past ++ before)).run c := moves_concat ..
  have hend : (fresh id listening limit).moves (past ++ (before ++ .run c :: after)) =
      (((fresh id listening limit).moves (past ++ before)).run c).moves after := by
    rw [← hrun, ← moves_append]
    simp
  rw [← moves_append, hend] at hout
  rcases (hsound (past ++ before)).begun hready hask' hne ho with
    ⟨n, message, hn, hmany, hbroken⟩ | ⟨hgathers, hmembers⟩
  · refine .inl ⟨n, message, ?_, hmany, ?_⟩
    · rw [← hn, limit_moves]
      rfl
    · have hstays := Sound.outcome?_moves (hrun ▸ hsound _) after hbroken
      rw [outcome?_eq_some_iff, hout] at hstays
      cases hstays
      rfl
  · right
    -- a batch that has ended has ended complete
    cases hgathers.moves (hrun ▸ hsound _) (hrun ▸ hkin _) after with
    | underWay b hc hr hm =>
      rw [hout] at hc
      cases hc
    | hasEnded b hc hr hm hb hkept =>
      rw [hout] at hc
      cases hc
      refine ⟨before, after, _, b.registrations, b.parts, rfl, rfl, fun i d hd => ?_, ?_⟩
      · rw [hrun]
        exact hmembers i d hd
      · rw [hend]
        refine hkept.account (hend ▸ hnum _) hb hr (Text.trim_trim _) hm fun i d hd => ?_
        obtain ⟨s, hs, hl⟩ := Sound.goes_moves (hrun ▸ hsound _) after _ _ (hmembers i d hd)
        exact ⟨s, hs, Stage.Publishes.leads (s := .asked (.publish _ d)) ⟨rfl, rfl⟩ hl⟩

/-- A batch with the same schema twice is asked for. -/
def batchOfTwins : List Move :=
  [.ask (.publishAll { name := " r" } [{ schema := ⟨"s", "1"⟩ }, { schema := ⟨"s ", "2"⟩ }])]

/-- The second of them comes first, and the other one is refused. -/
def secondTwinFirst : List Move :=
  [.run 0, .run 2, .run 1, .answerPublish 2 (.record ⟨"1", "s", none, {}⟩), .run 0]

theorem batch_accounted_twins :
    ∃ before after first gs parts, secondTwinFirst = before ++ .run 0 :: after ∧
      first = ((fresh "id" true none).moves (batchOfTwins ++ before)).tasks.length ∧
      (∀ i d, [{ schema := ⟨"s", "1"⟩ }, { schema := ⟨"s ", "2"⟩ }][i]? = some d →
        ((fresh "id" true none).moves (batchOfTwins ++ before ++ [.run 0])).stage? (first + i) =
          some (.asked (.publish { name := Text.trim " r" } d))) ∧
      ((fresh "id" true none).moves (batchOfTwins ++ secondTwinFirst)).BatchAccount 0 first
        (Text.trim " r") [{ schema := ⟨"s", "1"⟩ }, { schema := ⟨"s ", "2"⟩ }] gs parts
        (.failed (.partialPublish "r" 2 [⟨"s", "r", .duplicate "r" "s"⟩])) := by
  have hask : ((fresh "id" true none).moves batchOfTwins).stage? 0 = some (.asked (.publishAll
      { name := " r" } [{ schema := ⟨"s", "1"⟩ }, { schema := ⟨"s ", "2"⟩ }])) := by rfl
  have hout : ((fresh "id" true none).moves (batchOfTwins ++ secondTwinFirst)).outcome? 0 =
      some (.failed (.partialPublish "r" 2 [⟨"s", "r", .duplicate "r" "s"⟩])) := by rfl
  rcases batch_accounted "id" true none batchOfTwins secondTwinFirst 0 { name := " r" }
    [{ schema := ⟨"s", "1"⟩ }, { schema := ⟨"s ", "2"⟩ }] _ hask (by simp) (by decide +kernel)
    hout with ⟨n, message, hn, -⟩ | haccount
  · cases hn
  · exact haccount

end Publisher
end SchemaHerald
