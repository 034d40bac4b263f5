import SchemaHerald.Proofs.RegistrarChanges

/-!
# Round trips through the registrar

A caller who reserves a key, asks for the handle of the registry and registers should find handle and
registration again under the same two names, and be able to take the registration back. The
operations do not agree on the name of the registry, though: the key of a reservation and every
look-up go by the name without the blanks around it, a handle is stored under the name as it stands,
and the key of a registration has the name of its handle.

Every key that is taken is without such blanks (`Registrar.Trimmed`), at all times
(`Sound.trimmed_moves`). So the round trip succeeds exactly if the registry's name has none either
(`roundTrip_moves`), whatever the name of the schema; `roundTrip_lost` is one that does not.
-/
namespace SchemaHerald

namespace Registrar

variable {r r' : Registrar}

/-! ## Keys that are taken -/

/-- **Keys that are taken** have no blanks around their names. -/
def Trimmed (r : Registrar) : Prop :=
  ∀ k slot, r.slots.get? k = some slot → Key.canonical k.registry k.schema = k

/-- The key of two names is the key of its own names. -/
theorem canonical_canonical (registry schema : String) :
    Key.canonical (Key.canonical registry schema).registry (Key.canonical registry schema).schema =
      Key.canonical registry schema := by
  simp [Key.canonical]

/-- No other keys are taken than before. -/
theorem Trimmed.mono (h : r.Trimmed)
    (hslots : ∀ k slot, r'.slots.get? k = some slot → ∃ slot', r.slots.get? k = some slot') :
    r'.Trimmed := by
  intro k slot hk
  obtain ⟨slot', hk'⟩ := hslots k slot hk
  exact h k slot' hk'

theorem Trimmed.congr (h : r.Trimmed) (hslots : r'.slots = r.slots) : r'.Trimmed :=
  h.mono fun _ slot hk => ⟨slot, hslots ▸ hk⟩

theorem Trimmed.reserve {registry schema : String} {k : Key} (h : r.Trimmed)
    (hr : r.reserve registry schema = .ok (k, r')) : r'.Trimmed := by
  obtain ⟨-, rfl, -, rfl⟩ := reserve_eq_ok_iff.1 hr
  intro k' slot hk'
  rw [Table.get?_insert] at hk'
  split at hk'
  · rename_i he
    rw [he, canonical_canonical]
  · exact h k' slot hk'

/-- A key is registered under which something was reserved. -/
theorem Trimmed.register {k : Key} {slot : Slot} (h : r.Trimmed) (hk : r.slots.get? k = some slot)
    (record : Record) (handle : Handle) (listened : Bool) :
    (r.register k record handle listened).2.Trimmed := by
  refine h.mono fun k' slot' hk' => ?_
  simp only [Registrar.register, Table.get?_insert] at hk'
  split at hk'
  · rename_i he
    exact ⟨slot, he ▸ hk⟩
  · exact ⟨slot', hk'⟩

theorem Trimmed.abandon (h : r.Trimmed) (k : Key) : (r.abandon k).Trimmed := by
  refine h.mono fun k' slot hk' => ?_
  simp only [Registrar.abandon] at hk'
  by_cases hres : r.slots.get? k = some .reserved
  · rw [get?_unreserve hres] at hk'
    split at hk'
    · cases hk'
    · exact ⟨slot, hk'⟩
  · rw [unreserve_of_ne hres] at hk'
    exact ⟨slot, hk'⟩

theorem Trimmed.unregister (h : r.Trimmed) (g : Registration) : (r.unregister g).Trimmed := by
  refine h.mono fun k slot hk => ?_
  unfold Registrar.unregister at hk
  split at hk
  · rw [Table.get?_erased] at hk
    split at hk
    · cases hk
    · exact ⟨slot, hk⟩
  · exact ⟨slot, hk⟩

theorem Trimmed.change (h : r.Trimmed) (hc : r.Change r') : r'.Trimmed := by
  cases hc with
  | reserve o schema k r₁ hr => exact (h.reserve hr).congr (slots_handleFor o)
  | commit k record handle listened hk hres hh hn => exact h.register hres record handle listened
  | abandon k hres => exact h.abandon k
  | unregister g => exact h.unregister g
  | close => exact h
  | release hc h0 =>
    intro k slot hk
    cases hk

theorem Trimmed.use (h : r.Trimmed) (hu : r.Use r') : r'.Trimmed := by
  cases hu with
  | refused | newHandle => exact h
  | reserve registry schema k _ hr => exact h.reserve hr
  | drop k hres => exact h.abandon k
  | register k record handle hres => exact h.register hres record handle true
  | unregister g => exact h.unregister g
  | handleFor o => exact h.congr (slots_handleFor o)

theorem Trimmed.changes (h : r.Trimmed) (hc : r.Changes r') : r'.Trimmed := by
  induction hc with
  | refl => exact h
  | tail _ hstep ih => exact ih.change hstep

/-! ## One round trip -/

/-- **Reserves, asks for the handle and registers** under two names, one after the other. -/
def enroll (r : Registrar) (registry schema : String) (record : Record) (listened : Bool) :
    Except Failure (Handle × Registration × Registrar) := do
  let (key, r) ← r.reserve registry schema
  let (handle, r) := r.handleFor (.named registry)
  let (registration, r) := r.register key record handle listened
  return (handle, registration, r)

/-- **The round trip succeeds**: what was enrolled under two names is found and taken back under
them. -/
structure ComesBack (r : Registrar) (registry schema : String) (h : Handle) (g : Registration) :
    Prop where
  /-- The handle is the one of the registry. -/
  handle : r.handle? (some registry) = some h
  /-- The registration is live under the two names. -/
  found : r.find? registry schema = some g
  /-- Unregistering removes something. -/
  removed : r.holds g = true
  /-- Nothing is live under the two names afterwards. -/
  gone : (r.unregister g).find? registry schema = none
  /-- The key can be reserved again. -/
  free : ∃ k r', (r.unregister g).reserve registry schema = .ok (k, r')

/-- **The registration cannot be taken back**: it is live, and stays so. -/
structure IsStuck (r : Registrar) (registry schema : String) (h : Handle) (g : Registration) :
    Prop where
  /-- The handle is not found. -/
  handle : r.handle? (some registry) ≠ some h
  /-- The registration is. -/
  found : r.find? registry schema = some g
  /-- Unregistering finds nothing to remove. -/
  kept : r.holds g = false ∧ r.unregister g = r
  /-- The key stays taken. -/
  taken : (r.unregister g).reserve registry schema =
    .error (.duplicate (Text.trim registry) (Text.trim schema))

variable {registry schema : String} {record : Record} {listened : Bool}

/-- What is known of a registrar in which something was enrolled. -/
structure Enrolled (registry schema : String) (h : Handle) (g : Registration) (r : Registrar) :
    Prop where
  isOpen : r.closed = false
  handle : r.handles.get? registry = some h
  name : h.name = registry
  live : r.live? (Key.canonical registry schema) = some g
  key : g.key = ⟨registry, Text.trim schema⟩

/-- **Under every free key of an open registrar** something can be enrolled. -/
theorem enrolled_of_free (hopen : r.closed = false)
    (hfree : r.slots.get? (Key.canonical registry schema) = none)
    (hnamed : ∀ n h, r.handles.get? n = some h → h.name = n) (htrimmed : r.Trimmed) :
    ∃ h g r', r.enroll registry schema record listened = .ok (h, g, r') ∧
      Enrolled registry schema h g r' ∧ r'.Trimmed ∧
      ∀ n h, r'.handles.get? n = some h → h.name = n := by
  generalize hkey : Key.canonical registry schema = k at hfree
  obtain ⟨r₁, hreserved⟩ : ∃ r₁, r.reserve registry schema = .ok (k, r₁) :=
    ⟨_, reserve_eq_ok_iff.2 ⟨hopen, hkey.symm, hfree, rfl⟩⟩
  have hr₁ := (reserve_eq_ok_iff.1 hreserved).2.2.2
  generalize hmade : r₁.handleFor (.named registry) = made
  obtain ⟨h, r₂⟩ := made
  have hr₂ : r₂ = (r₁.handleFor (.named registry)).2 := by rw [hmade]
  have hnamed₂ : ∀ n h, r₂.handles.get? n = some h → h.name = n := by
    rw [hr₂]
    exact named_handleFor (hr₁ ▸ hnamed)
  have hhandle : r₂.handles.get? registry = some h := by
    rw [hr₂, get?_handleFor, hmade]
    exact if_pos rfl
  have hslots : r₂.slots = r₁.slots := by rw [hr₂, slots_handleFor]
  have hslot : r₂.slots.get? k = some .reserved := by
    rw [hslots, hr₁]
    exact Table.get?_insert_self ..
  have hopen₂ : r₂.closed = false := by
    rw [hr₂, closed_handleFor, hr₁]
    exact hopen
  refine ⟨h, (r₂.register k record h listened).1, (r₂.register k record h listened).2, ?_,
    ⟨hopen₂, hhandle, hnamed₂ _ _ hhandle, ?_, ?_⟩, ?_, hnamed₂⟩
  · rw [enroll, hreserved]
    simp only [bind, Except.bind, hmade]
    rfl
  · rw [hkey, live?_register, if_pos rfl]
  · rw [← hkey]
    exact congrArg (Key.mk · (Text.trim schema)) (hnamed₂ _ _ hhandle)
  · exact ((htrimmed.reserve hreserved).congr hslots).register hslot record h listened

variable {h : Handle} {g : Registration}

/-- A registration is taken back if the registry's name has no blanks around it. -/
theorem Enrolled.comesBack (he : Enrolled registry schema h g r)
    (htrim : Text.trim registry = registry) : r.ComesBack registry schema h g := by
  have hkey : Key.canonical registry schema = g.key := by
    rw [he.key, Key.canonical, htrim]
  have hlive : r.live? g.key = some g := hkey ▸ he.live
  have hholds : r.holds g = true := holds_iff.2 ⟨g, hlive, by simp [Registration.alike]⟩
  have hfree : (r.unregister g).slots.get? (Key.canonical registry schema) = none := by
    rw [hkey, Registrar.unregister, if_pos hholds, Table.get?_erased, if_pos rfl]
  refine ⟨?_, he.live, hholds, ?_, ?_⟩
  · rw [handle?, Option.map_some, Option.getD_some, htrim]
    exact he.handle
  · rw [find?, hfree]
    rfl
  · refine ⟨_, _, reserve_eq_ok_iff.2 ⟨?_, rfl, hfree, rfl⟩⟩
    rw [closed_unregister]
    exact he.isOpen

/-- A registration is not taken back if the registry's name has blanks around it: its key has the
name of the handle, which is no key that can be taken. -/
theorem Enrolled.isStuck (he : Enrolled registry schema h g r) (htrimmed : r.Trimmed)
    (hnamed : ∀ n h, r.handles.get? n = some h → h.name = n)
    (htrim : Text.trim registry ≠ registry) : r.IsStuck registry schema h g := by
  have hlive : r.live? g.key = none := by
    cases hl : r.live? g.key with
    | none => rfl
    | some g' =>
      have hcanonical := htrimmed _ _ (live?_eq_some_iff.1 hl)
      rw [he.key] at hcanonical
      exact absurd (congrArg Key.registry hcanonical) htrim
  have hholds : r.holds g = false := by
    rw [Bool.eq_false_iff]
    intro hholds
    obtain ⟨g', hg', -⟩ := holds_iff.1 hholds
    rw [hlive] at hg'
    cases hg'
  have hsame : r.unregister g = r := by
    rw [Registrar.unregister, hholds]
    rfl
  refine ⟨fun hfound => htrim ?_, he.live, ⟨hholds, hsame⟩, ?_⟩
  · -- a handle found under a name has that name
    rw [handle?, Option.map_some, Option.getD_some] at hfound
    rw [← hnamed _ _ hfound, he.name]
  · rw [hsame]
    exact reserve_eq_error_iff.2
      (.inr ⟨he.isOpen, ⟨_, live?_eq_some_iff.1 he.live⟩, rfl⟩)

end Registrar

namespace Publisher

variable {p : Publisher}

/-! ## At all times -/

theorem Sound.trimmed_move (hp : p.Sound) (h : p.registrar.Trimmed) (m : Move) :
    (p.move m).registrar.Trimmed := by
  cases hm : m.isDirect with
  | true => exact h.use (hp.use_move hm)
  | false => exact h.changes (hp.changes_move hm)

/-- **At all times** the keys that are taken have no blanks around their names. -/
theorem Sound.trimmed_moves (hp : p.Sound) (h : p.registrar.Trimmed) (ms : List Move) :
    (p.moves ms).registrar.Trimmed := by
  induction ms generalizing p with
  | nil => exact h
  | cons m ms ih => exact ih (hp.move m) (hp.trimmed_move h m)

theorem trimmed_fresh (id : String) (listening : Bool) (limit : Option Nat) :
    (fresh id listening limit).registrar.Trimmed := by
  intro k slot hk
  cases hk

/-- **The round trip through the registrar**, at any time while it is open and under any two names
whose key is free. Reserving, asking for the handle and registering always succeed, and the
registration is found under the two names. It comes back exactly if there are no blanks around the
registry's name; otherwise its handle is not found, and it stays live, as unregistering it finds
nothing to remove. -/
theorem roundTrip_moves (id : String) (listening : Bool) (limit : Option Nat) (ms : List Move)
    (registry schema : String) (record : Record) (listened : Bool)
    (hopen : ((fresh id listening limit).moves ms).registrar.closed = false)
    (hfree : ((fresh id listening limit).moves ms).registrar.slots.get?
      (Key.canonical registry schema) = none) :
    ∃ h g r, ((fresh id listening limit).moves ms).registrar.enroll registry schema record
        listened = .ok (h, g, r) ∧
      r.find? registry schema = some g ∧
      (r.ComesBack registry schema h g ↔ Text.trim registry = registry) ∧
      (r.IsStuck registry schema h g ↔ Text.trim registry ≠ registry) := by
  have hsound := (sound_fresh id listening limit).moves ms
  have htrimmed := (sound_fresh id listening limit).trimmed_moves
    (trimmed_fresh id listening limit) ms
  obtain ⟨h, g, r, henroll, henrolled, htrimmed', hnamed⟩ :=
    Registrar.enrolled_of_free hopen hfree hsound.named htrimmed
  have hback := henrolled.comesBack
  have hstuck := henrolled.isStuck htrimmed' hnamed
  refine ⟨h, g, r, henroll, henrolled.live, ⟨fun hcomes => ?_, hback⟩, ⟨fun hno htrim => ?_, hstuck⟩⟩
  · by_contra htrim
    exact (hstuck htrim).handle hcomes.handle
  · exact hno.handle (hback htrim).handle

/-- The round trip of a schema whose name has blanks around it, next to another one that is live. -/
theorem roundTrip_paddedSchema :
    ∃ h g r, ((fresh "pub" true none).moves [.ask (.publish { name := "r" } { schema := ⟨"t", "1"⟩ }),
        .run 0, .answerPublish 0 (.record ⟨"1", "t", none, {}⟩)]).registrar.enroll "r" " s "
        ⟨"2", "s", none, {}⟩ true = .ok (h, g, r) ∧ r.ComesBack "r" " s " h g := by
  obtain ⟨h, g, r, henroll, -, hback, -⟩ := roundTrip_moves "pub" true none
    [.ask (.publish { name := "r" } { schema := ⟨"t", "1"⟩ }), .run 0,
      .answerPublish 0 (.record ⟨"1", "t", none, {}⟩)] "r" " s " ⟨"2", "s", none, {}⟩ true
    (by decide +kernel) (by rfl)
  exact ⟨h, g, r, henroll, hback.2 (by decide)⟩

end Publisher

/-- **A round trip that is lost**: with a blank before the registry's name the registration is live,
and can neither be taken back nor published again. -/
theorem Registrar.roundTrip_lost :
    ∃ h g r, (Publisher.fresh "pub" true none).registrar.enroll " r" "s" ⟨"1", "s", none, {}⟩ true =
        .ok (h, g, r) ∧
      r.find? " r" "s" = some g ∧ r.handle? (some " r") = none ∧ r.holds g = false ∧
      (r.unregister g).reserve " r" "s" = .error (.duplicate "r" "s") ∧
      ¬ r.ComesBack " r" "s" h g := by
  refine ⟨_, _, _, rfl, rfl, rfl, rfl, rfl, fun hback => ?_⟩
  cases hback.handle

end SchemaHerald
