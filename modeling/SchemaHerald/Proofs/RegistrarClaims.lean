import Mathlib.Data.List.Perm.Basic
import SchemaHerald.Proofs.TableEntries
import SchemaHerald.Registrar

/-!
# What the operations of a registrar do

The keys of a registrar are taken by reservations and by registrations. `live?` reads the second
kind off the slots, and `Claimed r ks` says that the first kind is exactly the list `ks`, without
repetition, and that the count of a registrar is its length. Each operation has one lemma for
`live?` and one for `Claimed`; nothing else about the slots is used later.
-/
namespace SchemaHerald.Registrar

variable {r r' : Registrar} {ks : List Key} {k k' : Key}

/-- The registration that takes a key. -/
def live? (r : Registrar) (k : Key) : Option Registration :=
  (r.slots.get? k).bind Slot.registration?

theorem live?_eq_some_iff {g : Registration} :
    r.live? k = some g ↔ r.slots.get? k = some (.live g) := by
  unfold live?
  cases h : r.slots.get? k with
  | none => simp
  | some slot => cases slot <;> simp [Slot.registration?]

/-- A registration is listed when it takes a key. -/
theorem mem_registrations_iff {g : Registration} :
    g ∈ r.registrations ↔ ∃ k, r.live? k = some g := by
  simp only [registrations, List.mem_mergeSort, List.mem_filterMap, Table.mem_values_iff, live?,
    Option.bind_eq_some_iff]
  constructor
  · rintro ⟨slot, ⟨k, hk⟩, hs⟩
    exact ⟨k, slot, hk, hs⟩
  · rintro ⟨k, slot, hk, hs⟩
    exact ⟨slot, ⟨k, hk⟩, hs⟩

theorem registrations_eq_nil_iff : r.registrations = [] ↔ ∀ k, r.live? k = none := by
  rw [List.eq_nil_iff_forall_not_mem]
  constructor
  · intro h k
    cases hk : r.live? k with
    | none => rfl
    | some g => exact absurd (mem_registrations_iff.2 ⟨k, hk⟩) (h g)
  · intro h g hg
    obtain ⟨k, hk⟩ := mem_registrations_iff.1 hg
    rw [h k] at hk
    cases hk

/-- The registrations with the keys that they take, ordered by key. -/
def liveEntries (r : Registrar) : List (Key × Registration) :=
  r.slots.entries.filterMap fun e => e.2.registration?.map fun g => (e.1, g)

theorem pairwise_liveEntries (r : Registrar) :
    r.liveEntries.Pairwise fun a b => compare a.1 b.1 = .lt := by
  refine List.pairwise_filterMap.2 (r.slots.ordered.imp fun {e e'} hlt a ha b hb => ?_)
  obtain ⟨g, -, rfl⟩ := Option.map_eq_some_iff.1 ha
  obtain ⟨g', -, rfl⟩ := Option.map_eq_some_iff.1 hb
  exact hlt

theorem mem_liveEntries_iff {e : Key × Registration} :
    e ∈ r.liveEntries ↔ r.live? e.1 = some e.2 := by
  obtain ⟨k, g⟩ := e
  simp only [liveEntries, List.mem_filterMap, Option.map_eq_some_iff, Prod.mk.injEq, live?,
    Option.bind_eq_some_iff]
  constructor
  · rintro ⟨⟨k', slot⟩, he, g', hg, rfl, rfl⟩
    exact ⟨slot, (Table.mem_entries_iff _ _ _).1 he, hg⟩
  · rintro ⟨slot, hk, hg⟩
    exact ⟨(k, slot), (Table.mem_entries_iff _ _ _).2 hk, g, hg, rfl, rfl⟩

theorem map_snd_liveEntries (r : Registrar) :
    r.liveEntries.map (·.2) = r.slots.values.filterMap Slot.registration? := by
  simp only [liveEntries, Table.values, List.map_filterMap, List.filterMap_map, Option.map_map]
  refine List.filterMap_congr fun e _ => ?_
  simp only [Function.comp_apply]
  cases e.2.registration? <;> rfl

/-- **What is listed** depends on what takes the keys alone. -/
theorem registrations_congr (h : ∀ k, r'.live? k = r.live? k) :
    r'.registrations = r.registrations := by
  have hsame : r'.liveEntries = r.liveEntries := by
    refine Table.entries_eq_of_mem r'.pairwise_liveEntries r.pairwise_liveEntries fun e => ?_
    rw [mem_liveEntries_iff, mem_liveEntries_iff, h]
  rw [registrations, registrations, ← map_snd_liveEntries, ← map_snd_liveEntries, hsame]

/-! ## Look-ups after an operation -/

theorem reserve_eq_ok_iff {registry schema : String} :
    r.reserve registry schema = .ok (k, r') ↔
      r.closed = false ∧ k = Key.canonical registry schema ∧ r.slots.get? k = none ∧
        r' = { r with slots := r.slots.insert k .reserved, inFlight := r.inFlight + 1 } := by
  unfold reserve
  by_cases hc : r.closed
  · simp [hc]
  · by_cases ht : r.slots.contains (Key.canonical registry schema)
    · have hne := ht
      simp only [Table.contains, Option.isSome_iff_ne_none] at hne
      simp only [hc, ht, reduceCtorEq, ite_true, Bool.false_eq_true, ite_false, false_iff]
      rintro ⟨-, rfl, h, -⟩
      exact hne h
    · have hnone := ht
      simp only [Table.contains, Bool.not_eq_true, Option.isSome_eq_false_iff,
        Option.isNone_iff_eq_none] at hnone
      simp only [hc, ht, Bool.false_eq_true, ite_false, Except.ok.injEq, Prod.mk.injEq,
        true_and]
      constructor
      · rintro ⟨rfl, rfl⟩
        exact ⟨rfl, hnone, rfl⟩
      · rintro ⟨rfl, -, rfl⟩
        exact ⟨rfl, rfl⟩

/-- **What refuses a reservation**: the registrar is closed, or the key is taken. -/
theorem reserve_eq_error_iff {registry schema : String} {failure : Failure} :
    r.reserve registry schema = .error failure ↔
      (r.closed = true ∧ failure = .registrarClosed) ∨
        (r.closed = false ∧ (∃ slot, r.slots.get? (Key.canonical registry schema) = some slot) ∧
          failure = .duplicate (Text.trim registry) (Text.trim schema)) := by
  unfold reserve
  by_cases hc : r.closed
  · simp [hc, eq_comm]
  · by_cases ht : r.slots.contains (Key.canonical registry schema)
    · have hs := (Table.contains_iff _ _).1 ht
      simp only [hc, ht, hs, Bool.false_eq_true, ite_false, ite_true, false_and, true_and,
        false_or, Except.error.injEq]
      exact eq_comm
    · have hs := mt (Table.contains_iff _ _).2 ht
      simp [hc, ht, hs]

theorem get?_unreserve (h : r.slots.get? k = some .reserved) :
    (r.unreserve k).get? k' = if k' = k then none else r.slots.get? k' := by
  simp [unreserve, h, Table.get?_erased]

theorem unreserve_of_ne (h : r.slots.get? k ≠ some .reserved) : r.unreserve k = r.slots := by
  unfold unreserve
  split
  · rename_i hk
    exact absurd hk h
  · rfl

theorem live?_abandon : (r.abandon k).live? k' = r.live? k' := by
  simp only [live?, abandon]
  by_cases h : r.slots.get? k = some .reserved
  · rw [get?_unreserve h]
    split
    · rename_i hk
      rw [hk, h]
      rfl
    · rfl
  · rw [unreserve_of_ne h]

theorem live?_register {record : Record} {handle : Handle} {listened : Bool} :
    (r.register k record handle listened).2.live? k' =
      if k' = k then some (r.register k record handle listened).1 else r.live? k' := by
  simp only [live?, register, Table.get?_insert]
  split <;> rfl

theorem holds_iff {g : Registration} :
    r.holds g = true ↔ ∃ g', r.live? g.key = some g' ∧ g'.alike g = true := by
  simp [holds, live?, Option.any_eq_true]

theorem live?_unregister {g : Registration} :
    (r.unregister g).live? k' = if k' = g.key ∧ r.holds g = true then none else r.live? k' := by
  unfold unregister
  split
  · rename_i h
    simp only [live?, Table.get?_erased, h, and_true]
    split <;> simp
  · rename_i h
    simp [h]

/-- Unregistering leaves every reservation alone. -/
theorem reserved_unregister {g : Registration} :
    (r.unregister g).slots.get? k = some .reserved ↔ r.slots.get? k = some .reserved := by
  unfold unregister
  split
  · rename_i h
    obtain ⟨g', hg', -⟩ := holds_iff.1 h
    rw [live?_eq_some_iff] at hg'
    simp only [Table.get?_erased]
    split
    · rename_i hk
      subst hk
      simp [hg']
    · rfl
  · rfl

theorem live?_release : r.release.live? k = none := rfl

theorem get?_handleFor {options : RegistryOptions} {n : String} :
    (r.handleFor options).2.handles.get? n =
      if n = options.name then some (r.handleFor options).1 else r.handles.get? n := by
  unfold handleFor
  split
  · rename_i h hh
    split
    · rename_i hn
      rw [hn, hh]
    · rfl
  · simp only [newHandle, Table.get?_insert]

/-- A handle that is asked for is the one that was there, or a new one with the given options. -/
theorem handleFor_fst (r : Registrar) (options : RegistryOptions) :
    r.handles.get? options.name = some (r.handleFor options).1 ∨
      r.handles.get? options.name = none ∧ (r.handleFor options).1 = ⟨r.made, options⟩ := by
  unfold handleFor
  split
  · rename_i h hh
    exact .inl hh
  · rename_i hh
    exact .inr ⟨hh, rfl⟩

/-- Handles that are there stay. -/
theorem get?_handleFor_of_some {options : RegistryOptions} {n : String} {g : Handle}
    (h : r.handles.get? n = some g) : (r.handleFor options).2.handles.get? n = some g := by
  rw [get?_handleFor]
  split
  · rename_i hn
    subst hn
    rcases handleFor_fst r options with hf | ⟨hf, -⟩
    · rw [← hf, h]
    · rw [h] at hf
      cases hf
  · exact h

/-- Handles are stored under their names. -/
theorem named_handleFor {options : RegistryOptions}
    (h : ∀ n g, r.handles.get? n = some g → g.name = n) (n : String) (g : Handle)
    (hg : (r.handleFor options).2.handles.get? n = some g) : g.name = n := by
  rw [get?_handleFor] at hg
  split at hg
  · rename_i hn
    rw [← Option.some.inj hg, hn]
    rcases handleFor_fst r options with hf | ⟨-, hf⟩
    · exact h _ _ hf
    · rw [hf]
      rfl
  · exact h n g hg

section Fields
variable (options : RegistryOptions)

@[simp] theorem slots_handleFor : (r.handleFor options).2.slots = r.slots := by
  unfold handleFor
  split <;> rfl

@[simp] theorem inFlight_handleFor : (r.handleFor options).2.inFlight = r.inFlight := by
  unfold handleFor
  split <;> rfl

@[simp] theorem closed_handleFor : (r.handleFor options).2.closed = r.closed := by
  unfold handleFor
  split <;> rfl

@[simp] theorem publisher_handleFor : (r.handleFor options).2.publisher = r.publisher := by
  unfold handleFor
  split <;> rfl

@[simp] theorem shut_handleFor : (r.handleFor options).2.shut = r.shut := by
  unfold handleFor
  split <;> rfl

end Fields

section Unregistered
variable (g : Registration)

@[simp] theorem handles_unregister : (r.unregister g).handles = r.handles := by
  unfold unregister
  split <;> rfl

@[simp] theorem inFlight_unregister : (r.unregister g).inFlight = r.inFlight := by
  unfold unregister
  split <;> rfl

@[simp] theorem closed_unregister : (r.unregister g).closed = r.closed := by
  unfold unregister
  split <;> rfl

@[simp] theorem made_unregister : (r.unregister g).made = r.made := by
  unfold unregister
  split <;> rfl

@[simp] theorem publisher_unregister : (r.unregister g).publisher = r.publisher := by
  unfold unregister
  split <;> rfl

@[simp] theorem shut_unregister : (r.unregister g).shut = r.shut := by
  unfold unregister
  split <;> rfl

end Unregistered

/-! ## Outstanding reservations -/

/-- **The reservations that are out** are exactly `ks`: these keys, and no others, are taken by a
reservation, and the registrar counts them. -/
structure Claimed (r : Registrar) (ks : List Key) : Prop where
  nodup : ks.Nodup
  reserved : ∀ k, r.slots.get? k = some .reserved ↔ k ∈ ks
  count : r.inFlight = ks.length

theorem claimed_nil (publisher : String) : ({ publisher } : Registrar).Claimed [] where
  nodup := List.nodup_nil
  reserved k := by simp
  count := rfl

theorem Claimed.perm {ks' : List Key} (h : r.Claimed ks) (hp : ks.Perm ks') : r.Claimed ks' where
  nodup := hp.nodup_iff.1 h.nodup
  reserved k := (h.reserved k).trans hp.mem_iff
  count := h.count.trans hp.length_eq

/-- Slots and count decide which reservations are out. -/
theorem Claimed.congr (h : r.Claimed ks) (hs : r'.slots = r.slots)
    (hn : r'.inFlight = r.inFlight) : r'.Claimed ks where
  nodup := h.nodup
  reserved k := by rw [hs]; exact h.reserved k
  count := by rw [hn]; exact h.count

theorem Claimed.eq_nil (h : r.Claimed ks) (h0 : r.inFlight = 0) : ks = [] :=
  List.eq_nil_of_length_eq_zero (h.count ▸ h0)

theorem Claimed.reserve {registry schema : String} (h : r.Claimed ks)
    (hr : r.reserve registry schema = .ok (k, r')) : r'.Claimed (k :: ks) := by
  obtain ⟨-, -, hfree, rfl⟩ := reserve_eq_ok_iff.1 hr
  have hnot : k ∉ ks := fun hk => by
    rw [(h.reserved k).2 hk] at hfree
    cases hfree
  refine ⟨List.nodup_cons.2 ⟨hnot, h.nodup⟩, fun k' => ?_, by simp [h.count]⟩
  simp only [Table.get?_insert, List.mem_cons]
  split
  · rename_i hk
    simp [hk]
  · rename_i hk
    simp [hk, h.reserved k']

theorem Claimed.abandon (h : r.Claimed ks) (hk : k ∈ ks) : (r.abandon k).Claimed (ks.erase k) := by
  have hres := (h.reserved k).2 hk
  refine ⟨h.nodup.erase k, fun k' => ?_, ?_⟩
  · simp only [Registrar.abandon, get?_unreserve hres, h.nodup.mem_erase_iff]
    split
    · rename_i hkk
      simp [hkk]
    · rename_i hkk
      simp [hkk, h.reserved k']
  · simp only [Registrar.abandon, h.count, List.length_erase_of_mem hk]

theorem Claimed.register (h : r.Claimed ks) (hk : k ∈ ks) (record : Record) (handle : Handle)
    (listened : Bool) :
    (r.register k record handle listened).2.Claimed (ks.erase k) := by
  refine ⟨h.nodup.erase k, fun k' => ?_, ?_⟩
  · simp only [Registrar.register, Table.get?_insert, h.nodup.mem_erase_iff]
    split
    · rename_i hkk
      simp [hkk]
    · rename_i hkk
      simp [hkk, h.reserved k']
  · simp only [Registrar.register, h.count, List.length_erase_of_mem hk]

theorem Claimed.unregister {g : Registration} (h : r.Claimed ks) :
    (r.unregister g).Claimed ks where
  nodup := h.nodup
  reserved k := reserved_unregister.trans (h.reserved k)
  count := by rw [inFlight_unregister]; exact h.count

/-- It makes no difference to a release which registrations were removed before. -/
theorem release_foldl_unregister (r : Registrar) (gs : List Registration) :
    (gs.foldl Registrar.unregister r).release = r.release := by
  induction gs generalizing r with
  | nil => rfl
  | cons g gs ih =>
    rw [List.foldl_cons, ih]
    simp [Registrar.release]

/-- **Releasing** drops no reservation when none is out. -/
theorem Claimed.release (h : r.Claimed ks) (h0 : r.inFlight = 0) : r.release.Claimed ks := by
  have hnil := h.eq_nil h0
  subst hnil
  exact ⟨List.nodup_nil, fun k => by simp [Registrar.release], h0⟩

end SchemaHerald.Registrar
