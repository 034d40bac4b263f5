import Mathlib.Data.List.DropRight
import SchemaHerald.Publisher

/-!
# Names without blanks around them

Trimming a second time changes nothing (`trim_trim`), so that the key of two names is a key of
itself. A key is *canonical* when it is one that a publish can reserve: both names are trimmed and
something is left of them.
-/
namespace SchemaHerald

namespace Text

theorem trimChars_eq (cs : List Char) :
    trimChars cs = (cs.dropWhile isBlank).rdropWhile isBlank := rfl

theorem trimChars_trimChars (cs : List Char) : trimChars (trimChars cs) = trimChars cs := by
  rw [trimChars_eq (trimChars cs)]
  -- what is left at the front is the front of what was left before
  have hfront : (trimChars cs).dropWhile isBlank = trimChars cs := by
    refine List.dropWhile_eq_self_iff.2 fun hne => ?_
    obtain ⟨rest, hrest⟩ := List.rdropWhile_prefix isBlank (l := cs.dropWhile isBlank)
    rw [← trimChars_eq] at hrest
    have hne' : cs.dropWhile isBlank ≠ [] := by
      intro hnil
      rw [hnil, List.append_eq_nil_iff] at hrest
      exact (List.ne_nil_of_length_pos hne) hrest.1
    have hpos' : 0 < (cs.dropWhile isBlank).length := List.length_pos_iff.2 hne'
    have hhead : (trimChars cs)[0] = (cs.dropWhile isBlank)[0] := by
      simp only [← hrest, List.getElem_append_left hne]
    rw [hhead]
    exact List.dropWhile_get_zero_not isBlank cs hpos'
  rw [hfront, trimChars_eq, List.rdropWhile_idempotent]

/-- **Trimming twice** is trimming once. -/
@[simp] theorem trim_trim (s : String) : trim (trim s) = trim s := by
  rw [trim, toList_trim, trimChars_trimChars, ← trim]

end Text

/-- A key that a publish can reserve. -/
structure Key.IsCanonical (k : Key) : Prop where
  registry_trim : Text.trim k.registry = k.registry
  schema_trim : Text.trim k.schema = k.schema
  registry_ne : k.registry ≠ ""
  schema_ne : k.schema ≠ ""

@[simp] theorem Definition.trim_name (d : Definition) : Text.trim d.name = d.name :=
  Text.trim_trim _

theorem Key.canonical_trim (registry : String) (d : Definition) :
    Key.canonical (Text.trim registry) d.name = Key.canonical registry d.schema.name := by
  simp [Key.canonical, Definition.name]

namespace RegistryOptions

variable {o o' : RegistryOptions}

/-- **Options are acceptable** when something is left of the name; only the name changes. -/
theorem canonical?_eq_ok_iff :
    o.canonical? = .ok o' ↔ Text.trim o.name ≠ "" ∧ o' = { o with name := Text.trim o.name } := by
  unfold canonical?
  by_cases h : (Text.trim o.name).isEmpty
  · have he : Text.trim o.name = "" := String.isEmpty_iff.1 h
    simp [he]
  · have hne : Text.trim o.name ≠ "" := fun he => h (String.isEmpty_iff.2 he)
    simp [h, hne, eq_comm]

/-- A name of nothing but blanks is not acceptable. -/
theorem canonical?_of_blank (h : Text.trim o.name = "") :
    o.canonical? = .error (.invalidArgument "registry" "registry name must not be empty") := by
  unfold canonical?
  rw [if_pos (String.isEmpty_iff.2 h)]

/-- Options that are accepted once are accepted again as they are. -/
theorem canonical?_again (h : o.canonical? = .ok o') : o'.canonical? = .ok o' := by
  obtain ⟨hname, rfl⟩ := canonical?_eq_ok_iff.1 h
  exact canonical?_eq_ok_iff.2 ⟨by rwa [Text.trim_trim], by rw [Text.trim_trim]⟩

theorem name_of_canonical? (h : o.canonical? = .ok o') : o'.name = Text.trim o.name := by
  rw [(canonical?_eq_ok_iff.1 h).2]

/-- The key that a publish through acceptable options reserves. -/
theorem isCanonical_of_canonical? {d : Definition} (h : o.canonical? = .ok o')
    (hd : d.name.isEmpty = false) : (Key.canonical o'.name d.name).IsCanonical where
  registry_trim := Text.trim_trim _
  schema_trim := Text.trim_trim _
  registry_ne := by
    rw [name_of_canonical? h]
    simpa [Key.canonical] using (canonical?_eq_ok_iff.1 h).1
  schema_ne := by
    intro he
    have hname : d.name = "" := by simpa [Key.canonical] using he
    rw [hname] at hd
    cases hd

end RegistryOptions
end SchemaHerald
