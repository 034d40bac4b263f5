import Mathlib.Data.List.Nodup
import Mathlib.Logic.Function.Basic
import SchemaHerald.Session.Memory

/-!
# What the registry in memory keeps

No two records are given the same id (`idOf_injective`). As long as the ids that are stored differ, a
record is found under its id (`record?_eq_some_iff`), and what is listed for a registry is strictly
sorted when the names differ too (`names_records`). A publish that gets to the registry adds a record
or is refused, and an unpublish takes its record away or fails; nothing else changes.
-/
namespace SchemaHerald

/-- What the registry in memory keeps of a registration. -/
def Registration.stored (g : Registration) : StoredRecord := ⟨g.registry, g.record⟩

namespace MemoryRegistry

variable {m : MemoryRegistry} {registry id : String} {record : Record} {g : Registration}
  {s : StoredRecord}

/-! ## Ids -/

/-- The id of the record that is made when there were `n` before. -/
def idOf (n : Nat) : String := s!"uuid-{n + 1}"

/-- **Ids are given once.** -/
theorem idOf_injective : Function.Injective idOf := by
  intro a b hab
  have htext : "uuid-" ++ Nat.repr (a + 1) = "uuid-" ++ Nat.repr (b + 1) := by
    simpa [idOf] using hab
  have hrepr : Nat.repr (a + 1) = Nat.repr (b + 1) := by
    simpa using htext
  have hdigits : Nat.toDigits 10 (a + 1) = Nat.toDigits 10 (b + 1) := by
    rw [Nat.repr_eq_ofList_toDigits, Nat.repr_eq_ofList_toDigits] at hrepr
    exact String.ofList_injective hrepr
  have hnumber := congrArg (Nat.ofDigitChars 10 · 0) hdigits
  simp only [Nat.ofDigitChars_ten_toDigits] at hnumber
  omega

/-- The ids of all that is stored. -/
def ids (m : MemoryRegistry) : List String := m.stored.map (·.record.registrationId)

/-! ## Looking up and listing -/

/-- The record that is found in a registry under an id. -/
def record? (m : MemoryRegistry) (registry id : String) : Option Record :=
  (m.stored.find? (·.isAt registry id)).map (·.record)

theorem isAt_iff : s.isAt registry id = true ↔ s.registry = registry ∧ s.record.registrationId = id := by
  simp [StoredRecord.isAt]

/-- **Where the ids differ**, every record is found that is stored. -/
theorem record?_eq_some_iff (h : m.ids.Nodup) :
    m.record? registry id = some record ↔
      ⟨registry, record⟩ ∈ m.stored ∧ record.registrationId = id := by
  unfold record?
  constructor
  · intro hfound
    obtain ⟨s, hs, rfl⟩ := Option.map_eq_some_iff.1 hfound
    have hat := List.find?_some hs
    obtain ⟨rfl, hid⟩ := isAt_iff.1 hat
    exact ⟨List.mem_of_find?_eq_some hs, hid⟩
  · rintro ⟨hmem, rfl⟩
    have hat : StoredRecord.isAt ⟨registry, record⟩ registry record.registrationId = true :=
      isAt_iff.2 ⟨rfl, rfl⟩
    cases hs : m.stored.find? (·.isAt registry record.registrationId) with
    | none => exact absurd hat (List.find?_eq_none.1 hs _ hmem)
    | some s =>
      have hat' := List.find?_some hs
      obtain ⟨-, hid⟩ := isAt_iff.1 hat'
      have hsame := List.inj_on_of_nodup_map h (List.mem_of_find?_eq_some hs) hmem hid
      rw [hsame]
      rfl

/-- **The list of a registry is strictly sorted** when no two of its records share a name. -/
theorem names_records (h : ((m.stored.filter (·.registry == registry)).map (·.record.name)).Nodup) :
    ((m.records registry).map (·.name)).Pairwise (· < ·) := by
  have hsorted : (m.records registry).Pairwise fun a b => a.name ≤ b.name := by
    have hle : (m.records registry).Pairwise fun a b => decide (a.name ≤ b.name) = true := by
      refine List.pairwise_mergeSort ?_ ?_ _
      · intro a b c hab hbc
        exact decide_eq_true (String.le_trans (of_decide_eq_true hab) (of_decide_eq_true hbc))
      · intro a b
        simpa using String.le_total a.name b.name
    exact hle.imp of_decide_eq_true
  have hnodup : ((m.records registry).map (·.name)).Nodup := by
    have hperm : (m.records registry).Perm
        ((m.stored.filter (·.registry == registry)).map (·.record)) := List.mergeSort_perm ..
    rw [(hperm.map _).nodup_iff, List.map_map]
    exact h
  rw [List.pairwise_map]
  rw [List.Nodup, List.pairwise_map] at hnodup
  refine (hsorted.and hnodup).imp ?_
  intro a b hboth
  by_contra hnot
  exact hboth.2 (String.le_antisymm hboth.1 (String.not_lt.1 hnot))

/-! ## Calls that get to the registry -/

/-- The registry with the record of one more publish. -/
def withRecord (m : MemoryRegistry) (handle : Handle) (definition : Definition) : MemoryRegistry :=
  { m with
    stored := m.stored ++ [⟨handle.name, m.recordFor handle definition⟩]
    made := m.made + 1 }

/-- The registry without the record of a registration. -/
def without (m : MemoryRegistry) (g : Registration) : MemoryRegistry :=
  { m with stored := m.stored.filter fun s => !s.isAt g.registry g.id }

/-- **A publish that gets to the registry** is refused, or its record is stored. -/
theorem answerPublish_cases (m : MemoryRegistry) (shut : Bool) (handle : Handle)
    (definition : Definition) :
    (∃ cause, m.answerPublish shut handle definition = (.refused cause, m)) ∨
      m.answerPublish shut handle definition =
        (.record (m.recordFor handle definition), m.withRecord handle definition) := by
  unfold answerPublish publish
  cases shut with
  | true => exact .inl ⟨_, rfl⟩
  | false => exact .inr rfl

/-- **An unpublish that gets to the registry** fails, or its record was there and is taken away. -/
theorem answerUnpublish_cases (m : MemoryRegistry) (g : Registration) :
    ((∃ cause, m.answerUnpublish g = (.error cause, m)) ∧
        ∀ s ∈ m.stored, s.isAt g.registry g.id = false) ∨
      (m.answerUnpublish g = (.ok (), m.without g) ∧
        ∃ s ∈ m.stored, s.isAt g.registry g.id = true) := by
  unfold answerUnpublish unpublish
  by_cases hany : m.stored.any (·.isAt g.registry g.id) = true
  · right
    refine ⟨?_, List.any_eq_true.1 hany⟩
    simp only [hany, ite_true]
    rfl
  · left
    refine ⟨?_, by simpa using hany⟩
    simp only [hany, Bool.false_eq_true, ite_false]
    exact ⟨_, rfl⟩

theorem mem_without : s ∈ (m.without g).stored ↔
    s ∈ m.stored ∧ ¬ (s.registry = g.registry ∧ s.record.registrationId = g.id) := by
  simp only [without, List.mem_filter, Bool.not_eq_true', ← isAt_iff, Bool.not_eq_true]

theorem without_subset (m : MemoryRegistry) (g : Registration) : (m.without g).stored ⊆ m.stored :=
  List.filter_subset_self _

theorem not_mem_without (m : MemoryRegistry) (g : Registration) :
    g.stored ∉ (m.without g).stored := by
  intro hmem
  exact (mem_without.1 hmem).2 ⟨rfl, rfl⟩

end MemoryRegistry
end SchemaHerald
