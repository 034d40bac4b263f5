import Mathlib.Data.List.Nodup
import SchemaHerald.Table

/-!
# The entries of a table

Look-ups and entries say the same of a table: `mem_entries_iff` reads one off the other,
`eq_of_get?` the table off its look-ups, `entries_perm_append` the entries off what was added, and
`get?_insert` and `get?_erased` give the look-ups of a changed table for every key at once;
`get?_map` and `get?_overlay` do so for a table with changed values and for one table over another.
-/
namespace SchemaHerald.Table

open Std

variable {κ α : Type} [Ord κ] [TransOrd κ] [LawfulEqOrd κ]

omit [LawfulEqOrd κ] in
theorem ne_of_compare_lt {a b : κ} (h : compare a b = .lt) : a ≠ b := by
  intro he
  subst he
  have heq : compare a a = .eq := ReflCmp.compare_self
  rw [heq] at h
  cases h

/-- What a look-up finds in an ordered list is what stands in it. -/
theorem lookup?_eq_some_iff {k : κ} {v : α} {es : List (κ × α)}
    (h : es.Pairwise fun a b => compare a.1 b.1 = .lt) :
    lookup? k es = some v ↔ (k, v) ∈ es := by
  induction es with
  | nil => simp [lookup?]
  | cons head rest ih =>
    obtain ⟨k', v'⟩ := head
    obtain ⟨hhead, hrest⟩ := List.pairwise_cons.1 h
    by_cases hk : k = k'
    · subst hk
      have hnot : (k, v) ∉ rest := fun hm => ne_of_compare_lt (hhead _ hm) rfl
      simp [lookup?, ReflCmp.compare_self, hnot, eq_comm]
    · have hne : compare k k' ≠ .eq := fun he => hk (LawfulEqOrd.eq_of_compare he)
      simp [lookup?, hne, hk, ih hrest]

omit [TransOrd κ] [LawfulEqOrd κ] in
/-- Where all keys are larger, nothing is found. -/
theorem lookup?_eq_none_of_lt {k : κ} {es : List (κ × α)}
    (h : ∀ e ∈ es, compare k e.1 = .lt) : lookup? k es = none := by
  induction es with
  | nil => rfl
  | cons head rest ih =>
    have hhead := h head (List.mem_cons_self ..)
    rw [lookup?, hhead, if_neg (by simp)]
    exact ih fun e he => h e (List.mem_cons_of_mem _ he)

theorem mem_entries_iff (t : Table κ α) (k : κ) (v : α) :
    (k, v) ∈ t.entries ↔ t.get? k = some v :=
  (lookup?_eq_some_iff t.ordered).symm

omit [LawfulEqOrd κ] in
/-- No key stands twice. -/
theorem nodup_entries_fst (t : Table κ α) : (t.entries.map (·.1)).Nodup :=
  List.pairwise_map.2 (t.ordered.imp ne_of_compare_lt)

/-- **Entries that are added** stand in the table next to the ones that were there. -/
theorem entries_perm_append {t t' : Table κ α} {es : List (κ × α)} (hes : (es.map (·.1)).Nodup)
    (hnew : ∀ e ∈ es, t.get? e.1 = none)
    (h : ∀ k v, t'.get? k = some v ↔ t.get? k = some v ∨ (k, v) ∈ es) :
    t'.entries.Perm (t.entries ++ es) := by
  have hnodup : (t.entries ++ es).Nodup := by
    refine List.nodup_append.2 ⟨List.Nodup.of_map _ t.nodup_entries_fst, List.Nodup.of_map _ hes, ?_⟩
    rintro e he e' he' rfl
    obtain ⟨k, v⟩ := e
    have hnone := hnew (k, v) he'
    rw [(t.mem_entries_iff k v).1 he] at hnone
    cases hnone
  refine (List.perm_ext_iff_of_nodup (List.Nodup.of_map _ t'.nodup_entries_fst) hnodup).2 fun ⟨k, v⟩ => ?_
  rw [List.mem_append, mem_entries_iff, mem_entries_iff, h]

omit [LawfulEqOrd κ] in
/-- **Ordered entries** are the same if the same stand in both. -/
theorem entries_eq_of_mem {es es' : List (κ × α)} (h : es.Pairwise fun a b => compare a.1 b.1 = .lt)
    (h' : es'.Pairwise fun a b => compare a.1 b.1 = .lt) (hmem : ∀ e, e ∈ es ↔ e ∈ es') :
    es = es' := by
  have nodup : ∀ {es : List (κ × α)}, (es.Pairwise fun a b => compare a.1 b.1 = .lt) → es.Nodup :=
    fun h => h.imp fun hlt he => ne_of_compare_lt hlt (congrArg Prod.fst he)
  have hperm := (List.perm_ext_iff_of_nodup (nodup h) (nodup h')).2 hmem
  exact hperm.eq_of_pairwise
    (fun a b _ _ hab hba => absurd rfl (ne_of_compare_lt (TransCmp.lt_trans hab hba))) h h'

omit [TransOrd κ] [LawfulEqOrd κ] in
theorem eq_of_entries {t t' : Table κ α} (h : t.entries = t'.entries) : t = t' := by
  cases t
  cases t'
  cases h
  rfl

/-- **Tables are the same** if every look-up finds the same. -/
theorem eq_of_get? {t t' : Table κ α} (h : ∀ k, t.get? k = t'.get? k) : t = t' := by
  refine eq_of_entries (entries_eq_of_mem t.ordered t'.ordered fun ⟨k, v⟩ => ?_)
  rw [mem_entries_iff, mem_entries_iff, h]

theorem mem_values_iff (t : Table κ α) (v : α) : v ∈ t.values ↔ ∃ k, t.get? k = some v := by
  simp [values, ← mem_entries_iff]

/-- **Insertion**, for every key. -/
theorem get?_insert [DecidableEq κ] (t : Table κ α) (k : κ) (v : α) (k' : κ) :
    (t.insert k v).get? k' = if k' = k then some v else t.get? k' := by
  split
  · rename_i h
    subst h
    exact get?_insert_self t _ v
  · rename_i h
    exact get?_insert_of_ne t v (Ne.symm h)

/-- **Removal**, for every key. -/
theorem get?_erased [DecidableEq κ] (t : Table κ α) (k k' : κ) :
    (t.erase k).get? k' = if k' = k then none else t.get? k' := by
  rw [get?_erase]
  by_cases h : k' = k
  · subst h
    simp [ReflCmp.compare_self]
  · have hne : compare k k' ≠ .eq := fun he => h (LawfulEqOrd.eq_of_compare he).symm
    simp [h, hne]

omit [TransOrd κ] [LawfulEqOrd κ] in
@[simp] theorem get?_nothing (k : κ) : (∅ : Table κ α).get? k = none := rfl

omit [TransOrd κ] [LawfulEqOrd κ] in
theorem contains_iff (t : Table κ α) (k : κ) : t.contains k = true ↔ ∃ v, t.get? k = some v := by
  simp [contains, Option.isSome_iff_exists]

/-! ## Whole tables -/

omit [TransOrd κ] in
/-- What the entry of one key contributes, taken out of the whole table. -/
theorem flatMap_at [DecidableEq κ] {β : Type} (t : Table κ α) (k : κ) (f : α → List β) :
    (t.entries.flatMap fun e => if e.1 = k then f e.2 else []) = (t.get? k).elim [] f := by
  obtain ⟨es, hes⟩ := t
  simp only [get?]
  induction es with
  | nil => rfl
  | cons head rest ih =>
    obtain ⟨hhead, hrest⟩ := List.pairwise_cons.1 hes
    rw [List.flatMap_cons, ih hrest]
    by_cases hk : head.1 = k
    · -- the key does not stand a second time
      subst hk
      simp [lookup?, lookup?_eq_none_of_lt hhead, ReflCmp.compare_self]
    · have hne : compare k head.1 ≠ .eq := fun he => hk (LawfulEqOrd.eq_of_compare he).symm
      simp [lookup?, hne, hk]

omit [TransOrd κ] [LawfulEqOrd κ] in
/-- **Changed values**, for every key. -/
theorem get?_map {β : Type} (f : α → β) (t : Table κ α) (k : κ) :
    (t.map f).get? k = (t.get? k).map f := by
  obtain ⟨es, hes⟩ := t
  simp only [map, get?]
  clear hes
  induction es with
  | nil => rfl
  | cons head rest ih => by_cases h : compare k head.1 = .eq <;> simp [lookup?, h, ih]

/-- Entries put into a table one by one: an ordered list of them is found again by its keys. -/
theorem get?_foldl_insert {es : List (κ × α)}
    (hes : es.Pairwise fun a b => compare a.1 b.1 = .lt) (t : Table κ α) (k : κ) :
    (es.foldl (fun t e => t.insert e.1 e.2) t).get? k = (lookup? k es).or (t.get? k) := by
  classical
  induction es generalizing t with
  | nil => simp [lookup?]
  | cons head rest ih =>
    obtain ⟨hhead, hrest⟩ := List.pairwise_cons.1 hes
    rw [List.foldl_cons, ih hrest, get?_insert]
    by_cases hk : k = head.1
    · -- no later entry has this key, so what was put in stays
      subst hk
      simp [lookup?, lookup?_eq_none_of_lt hhead, ReflCmp.compare_self]
    · have hne : compare k head.1 ≠ .eq := fun he => hk (LawfulEqOrd.eq_of_compare he)
      simp [lookup?, hne, hk]

/-- **One table over another**, for every key: the whole value of the upper one counts. -/
theorem get?_overlay (base upper : Table κ α) (k : κ) :
    (base.overlay upper).get? k = (upper.get? k).or (base.get? k) :=
  get?_foldl_insert upper.ordered base k

end SchemaHerald.Table
