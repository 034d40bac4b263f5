/-!
# Tables ordered by key

A `Table κ α` holds at most one value for each key and lists its entries by ascending key, so that
two tables with the same entries are equal and every listing of one has a fixed order. The order is
the one of the key type; for texts it is the order of code points.

`get?_insert_self` and `get?_insert_of_ne` say what an insertion does to a look-up, and `get?_erase`
what a removal does.
-/
namespace SchemaHerald

open Std

/-- Entries in strictly ascending order of their keys. -/
structure Table (κ α : Type) [Ord κ] where
  /-- The entries, smallest key first. -/
  entries : List (κ × α)
  /-- No key stands twice, and none stands before a smaller one. -/
  ordered : entries.Pairwise fun a b => compare a.1 b.1 = .lt
deriving DecidableEq

namespace Table

variable {κ α β : Type} [Ord κ]

/-- The table without entries. -/
def empty : Table κ α := ⟨[], .nil⟩

instance : Inhabited (Table κ α) := ⟨empty⟩

instance : EmptyCollection (Table κ α) := ⟨empty⟩

/-- The value of a key in a list of entries. -/
def lookup? (k : κ) : List (κ × α) → Option α
  | [] => none
  | (k', v) :: rest => if compare k k' = .eq then some v else lookup? k rest

/-- The value stored under a key. -/
def get? (t : Table κ α) (k : κ) : Option α := lookup? k t.entries

/-- Whether a key has a value. -/
def contains (t : Table κ α) (k : κ) : Bool := (t.get? k).isSome

/-- The keys, in ascending order. -/
def keys (t : Table κ α) : List κ := t.entries.map (·.1)

/-- The values, in the order of their keys. -/
def values (t : Table κ α) : List α := t.entries.map (·.2)

/-- The number of entries. -/
def size (t : Table κ α) : Nat := t.entries.length

/-- Whether there is no entry. -/
def isEmpty (t : Table κ α) : Bool := t.entries.isEmpty

/-- Puts a value in its place, instead of the one that the key had. -/
def insertEntry (k : κ) (v : α) : List (κ × α) → List (κ × α)
  | [] => [(k, v)]
  | (k', v') :: rest =>
    match compare k k' with
    | .lt => (k, v) :: (k', v') :: rest
    | .eq => (k, v) :: rest
    | .gt => (k', v') :: insertEntry k v rest

theorem mem_insertEntry {k : κ} {v : α} {e : κ × α} {es : List (κ × α)}
    (h : e ∈ insertEntry k v es) : e = (k, v) ∨ e ∈ es := by
  induction es with
  | nil => simpa [insertEntry] using h
  | cons head rest ih =>
    obtain ⟨k', v'⟩ := head
    simp only [insertEntry] at h
    split at h
    · simpa using h
    · rcases List.mem_cons.1 h with h | h
      · exact .inl h
      · exact .inr (List.mem_cons_of_mem _ h)
    · rcases List.mem_cons.1 h with h | h
      · exact .inr (h ▸ List.mem_cons_self ..)
      · exact (ih h).imp id (List.mem_cons_of_mem _)

theorem ordered_insertEntry [TransOrd κ] (k : κ) (v : α) {es : List (κ × α)}
    (h : es.Pairwise fun a b => compare a.1 b.1 = .lt) :
    (insertEntry k v es).Pairwise fun a b => compare a.1 b.1 = .lt := by
  induction es with
  | nil => simp [insertEntry]
  | cons head rest ih =>
    obtain ⟨k', v'⟩ := head
    obtain ⟨hhead, hrest⟩ := List.pairwise_cons.1 h
    simp only [insertEntry]
    split
    · rename_i hlt
      refine List.pairwise_cons.2 ⟨fun e he => ?_, h⟩
      rcases List.mem_cons.1 he with rfl | he
      · exact hlt
      · exact TransCmp.lt_trans hlt (hhead e he)
    · rename_i heq
      exact List.pairwise_cons.2 ⟨fun e he => TransCmp.lt_of_eq_of_lt heq (hhead e he), hrest⟩
    · rename_i hgt
      refine List.pairwise_cons.2 ⟨fun e he => ?_, ih hrest⟩
      rcases mem_insertEntry he with rfl | he
      · exact OrientedCmp.lt_of_gt hgt
      · exact hhead e he

/-- **Insertion**: the key has the given value afterwards, all other keys keep theirs. -/
def insert [TransOrd κ] (t : Table κ α) (k : κ) (v : α) : Table κ α :=
  ⟨insertEntry k v t.entries, ordered_insertEntry k v t.ordered⟩

/-- **Removal**: the key has no value afterwards, all other keys keep theirs. -/
def erase (t : Table κ α) (k : κ) : Table κ α :=
  ⟨t.entries.filter (fun e => compare k e.1 != .eq), t.ordered.filter _⟩

/-- The table with a function applied to every value. -/
def map (f : α → β) (t : Table κ α) : Table κ β :=
  ⟨t.entries.map fun e => (e.1, f e.2), by
    simpa [List.pairwise_map] using t.ordered⟩

/-- The table of a list of entries; of entries with one key the last counts. -/
def ofList [TransOrd κ] (es : List (κ × α)) : Table κ α :=
  es.foldl (fun t e => t.insert e.1 e.2) empty

/-- Both tables together; where both have a value the one of `other` counts. -/
def overlay [TransOrd κ] (base other : Table κ α) : Table κ α :=
  other.entries.foldl (fun t e => t.insert e.1 e.2) base

/-! ## Look-ups -/

theorem lookup?_insertEntry_self [TransOrd κ] (k : κ) (v : α) (es : List (κ × α)) :
    lookup? k (insertEntry k v es) = some v := by
  induction es with
  | nil => simp [insertEntry, lookup?]
  | cons head rest ih =>
    obtain ⟨k', v'⟩ := head
    simp only [insertEntry]
    split
    · simp [lookup?]
    · simp [lookup?]
    · rename_i h
      simp [lookup?, h, ih]

theorem lookup?_insertEntry_of_ne [TransOrd κ] [LawfulEqOrd κ] {k k' : κ} (v : α)
    (es : List (κ × α)) (h : k ≠ k') :
    lookup? k' (insertEntry k v es) = lookup? k' es := by
  have hne : compare k' k ≠ .eq := fun e => h (LawfulEqOrd.eq_of_compare e).symm
  induction es with
  | nil => simp [insertEntry, lookup?, hne]
  | cons head rest ih =>
    obtain ⟨k'', v'⟩ := head
    simp only [insertEntry]
    split
    · simp [lookup?, hne]
    · rename_i heq
      have : k = k'' := LawfulEqOrd.eq_of_compare heq
      subst this
      simp [lookup?, hne]
    · simp [lookup?, ih]

@[simp] theorem get?_empty (k : κ) : (empty : Table κ α).get? k = none := rfl

@[simp] theorem get?_insert_self [TransOrd κ] (t : Table κ α) (k : κ) (v : α) :
    (t.insert k v).get? k = some v :=
  lookup?_insertEntry_self k v t.entries

theorem get?_insert_of_ne [TransOrd κ] [LawfulEqOrd κ] (t : Table κ α) {k k' : κ} (v : α)
    (h : k ≠ k') : (t.insert k v).get? k' = t.get? k' :=
  lookup?_insertEntry_of_ne v t.entries h

theorem get?_erase [TransOrd κ] [LawfulEqOrd κ] (t : Table κ α) (k k' : κ) :
    (t.erase k).get? k' = if compare k k' = .eq then none else t.get? k' := by
  obtain ⟨es, hes⟩ := t
  simp only [erase, get?]
  clear hes
  induction es with
  | nil => simp [lookup?]
  | cons head rest ih =>
    obtain ⟨k'', v⟩ := head
    by_cases h1 : k = k'' <;> by_cases h2 : k' = k''
    · subst h1; subst h2; simpa [lookup?] using ih
    · subst h1
      have : compare k k' ≠ .eq := fun e => h2 (LawfulEqOrd.eq_of_compare e).symm
      have h3 : compare k' k ≠ .eq := fun e => h2 (LawfulEqOrd.eq_of_compare e)
      simpa [lookup?, this, h3] using ih
    · subst h2
      have : compare k k' ≠ .eq := fun e => h1 (LawfulEqOrd.eq_of_compare e)
      simp [lookup?, this]
    · have h3 : compare k k'' ≠ .eq := fun e => h1 (LawfulEqOrd.eq_of_compare e)
      have h4 : compare k' k'' ≠ .eq := fun e => h2 (LawfulEqOrd.eq_of_compare e)
      simpa [lookup?, h3, h4] using ih

end Table
end SchemaHerald
