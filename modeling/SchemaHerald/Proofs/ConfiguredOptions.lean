import SchemaHerald.Proofs.BackendChecks
import SchemaHerald.Proofs.TrimmedNames

/-!
# The options that a name leads to

The settings look a registry up under exactly the name that was asked for, and a publish removes the
blanks around the name afterwards. So a name with blanks around it is published to under the name of
a registry that the settings describe, but not with what they say about it.

`canonical?_registryOptions` says for every name what is published with, and that the blanks make a
difference exactly where the settings say more about the registry than its name.
-/
namespace SchemaHerald

namespace RegistryOptions

/-- **Options say more than a name** if there is an address to announce or a backend. -/
def Details (o : RegistryOptions) : Prop := o.announceAddress ≠ none ∨ o.backend ≠ none

theorem eq_named_iff {o : RegistryOptions} {name : String} :
    { o with name } = RegistryOptions.named name ↔ ¬ o.Details := by
  simp [named, Details, not_or]

end RegistryOptions

namespace Settings

variable {s : Settings} {n : String}

/-- **The names of the described registries have no blanks around them.** -/
def TrimmedKeys (s : Settings) : Prop := ∀ k ∈ s.registries.keys, Text.trim k = k

/-- A name with blanks around it is none under which a registry is described. -/
theorem TrimmedKeys.get?_of_padded (h : s.TrimmedKeys) (hn : Text.trim n ≠ n) :
    s.registries.get? n = none := by
  cases hget : s.registries.get? n with
  | none => rfl
  | some o =>
    have hmem : (n, o) ∈ s.registries.entries := (Table.mem_entries_iff _ _ _).2 hget
    exact absurd (h n (List.mem_map_of_mem hmem)) hn

/-- So it leads to bare options. -/
theorem TrimmedKeys.registryOptions_of_padded (h : s.TrimmedKeys) (hn : Text.trim n ≠ n) :
    s.registryOptions n = .named n := by
  rw [registryOptions, h.get?_of_padded hn]

/-- And is published to with nothing but the name that is left of it. -/
theorem TrimmedKeys.canonical?_of_padded (h : s.TrimmedKeys) (hn : Text.trim n ≠ n)
    (hne : Text.trim n ≠ "") :
    (s.registryOptions n).canonical? = .ok (.named (Text.trim n)) := by
  rw [h.registryOptions_of_padded hn]
  exact RegistryOptions.canonical?_eq_ok_iff.2 ⟨hne, rfl⟩

/-- Options under a name that is acceptable as it stands are published with as they stand. -/
theorem canonical?_trimmed (s : Settings) (hne : Text.trim n ≠ "") :
    (s.registryOptions (Text.trim n)).canonical? = .ok (s.registryOptions (Text.trim n)) := by
  have hname := s.name_registryOptions (Text.trim n)
  refine RegistryOptions.canonical?_eq_ok_iff.2 ⟨?_, ?_⟩
  · rwa [hname, Text.trim_trim]
  · rw [hname, Text.trim_trim]
    exact congrArg (fun name => { s.registryOptions (Text.trim n) with name }) hname

/-- A name of nothing but blanks is refused, whatever is described. -/
theorem canonical?_blank (s : Settings) (hn : Text.trim n = "") :
    (s.registryOptions n).canonical? =
      .error (.invalidArgument "registry" "registry name must not be empty") :=
  RegistryOptions.canonical?_of_blank ((congrArg Text.trim (s.name_registryOptions n)).trans hn)

/-- **What a name leads to**, when the settings describe registries under trimmed names only.

A name without blanks around it leads to what is described under it. One with blanks around it leads
to the registry of the trimmed name and nothing else: there is no address to announce, and the
registry is opened whatever backend is described. The two agree for a name exactly if it has no
blanks around it, or is nothing but blanks and so not acceptable at all, or if the settings do not
say more than the trimmed name. -/
theorem canonical?_registryOptions (h : s.TrimmedKeys) (n : String) :
    ((s.registryOptions n).canonical? = (s.registryOptions (Text.trim n)).canonical? ↔
      Text.trim n = n ∨ Text.trim n = "" ∨
        ∀ o, s.registries.get? (Text.trim n) = some o → ¬ o.Details) ∧
    (∀ o, Text.trim n ≠ "" → s.registries.get? (Text.trim n) = some o →
      (s.registryOptions (Text.trim n)).canonical? = .ok { o with name := Text.trim n }) ∧
    (Text.trim n ≠ n → Text.trim n ≠ "" →
      (s.registryOptions n).canonical? = .ok (.named (Text.trim n)) ∧
      (s.registryOptions n).openRegistry = .ok {}) := by
  have described : ∀ o, s.registries.get? (Text.trim n) = some o →
      s.registryOptions (Text.trim n) = { o with name := Text.trim n } := fun o ho => by
    rw [registryOptions, ho]
  refine ⟨?_, fun o hne ho => ?_, fun hn hne => ⟨h.canonical?_of_padded hn hne, ?_⟩⟩
  · by_cases hn : Text.trim n = n
    · rw [hn]
      exact iff_of_true rfl (.inl rfl)
    · by_cases hne : Text.trim n = ""
      · rw [s.canonical?_blank hne, s.canonical?_blank ((Text.trim_trim n).trans hne)]
        exact iff_of_true rfl (.inr (.inl hne))
      · rw [h.canonical?_of_padded hn hne, s.canonical?_trimmed hne]
        cases hget : s.registries.get? (Text.trim n) with
        | none =>
          rw [registryOptions, hget]
          exact iff_of_true rfl (.inr (.inr fun o ho => by cases ho))
        | some o =>
          rw [described o hget]
          constructor
          · intro he
            refine .inr (.inr fun o' ho' => ?_)
            cases ho'
            exact RegistryOptions.eq_named_iff.1 (Except.ok.inj he).symm
          · intro hor
            have hbare := (hor.resolve_left hn).resolve_left hne o rfl
            rw [RegistryOptions.eq_named_iff.2 hbare]
  · rw [s.canonical?_trimmed hne, described o ho]
  · rw [h.registryOptions_of_padded hn]
    rfl

/-- Settings that describe one registry. -/
def oneRegistry (name : String) (o : RegistryOptions) : Settings where
  version := "1.0"
  registries := .ofList [(name, o)]

theorem trimmedKeys_oneRegistry (hn : Text.trim n = n) (o : RegistryOptions) :
    (oneRegistry n o).TrimmedKeys := fun k hk => by
  rw [List.mem_singleton.1 hk]
  exact hn

theorem get?_oneRegistry (n : String) (o : RegistryOptions) :
    (oneRegistry n o).registries.get? n = some o := Table.get?_insert_self _ n o

/-- A name with a blank before it leads to what is described without it if that is a bare name, and to
something else if there is an address to announce. -/
theorem canonical?_registryOptions_primary :
    ((oneRegistry "primary" {}).registryOptions " primary").canonical? =
      ((oneRegistry "primary" {}).registryOptions (Text.trim " primary")).canonical? ∧
    ((oneRegistry "primary" { announceAddress := some "a" }).registryOptions " primary").canonical? ≠
      ((oneRegistry "primary" { announceAddress := some "a" }).registryOptions
        (Text.trim " primary")).canonical? := by
  have htrim : Text.trim " primary" = "primary" := by decide +kernel
  have hkeys := trimmedKeys_oneRegistry (n := "primary") (by decide +kernel)
  constructor
  · refine (canonical?_registryOptions (hkeys {}) " primary").1.2 (.inr (.inr fun o ho => ?_))
    rw [htrim, get?_oneRegistry] at ho
    cases ho
    simp [RegistryOptions.Details]
  · intro he
    rcases (canonical?_registryOptions (hkeys _) " primary").1.1 he with hn | hne | hbare
    · exact absurd hn (by decide +kernel)
    · exact absurd hne (by decide +kernel)
    · rw [htrim] at hbare
      exact hbare _ (get?_oneRegistry _ _) (.inl (by simp))

/-- How to reach a registry that has an address to announce and a backend that nobody knows. -/
def elsewhere : RegistryOptions where
  name := "primary"
  announceAddress := some "a"
  backend := some { name := "nowhere" }

/-- **Blanks around a name can make a difference**: where a registry is described with an address to
announce and with a backend that nobody knows, it cannot be opened under its name; with a blank
before the name it can, and is published to without either. -/
theorem canonical?_registryOptions_differs :
    ¬ (∀ s : Settings, s.TrimmedKeys → ∀ n,
        (s.registryOptions n).canonical? = (s.registryOptions (Text.trim n)).canonical?) ∧
    ((oneRegistry "primary" elsewhere).registryOptions " primary").canonical? =
      .ok { name := "primary" } ∧
    (∃ m, ((oneRegistry "primary" elsewhere).registryOptions " primary").openRegistry = .ok m) ∧
    ((oneRegistry "primary" elsewhere).registryOptions (Text.trim " primary")).canonical? =
      .ok elsewhere ∧
    ∃ f, ((oneRegistry "primary" elsewhere).registryOptions (Text.trim " primary")).openRegistry =
      .error f := by
  have htrim : Text.trim " primary" = "primary" := by decide +kernel
  have hkeys := trimmedKeys_oneRegistry (n := "primary") (by decide +kernel) elsewhere
  have hbare : (oneRegistry "primary" elsewhere).registryOptions " primary" = .named " primary" :=
    hkeys.registryOptions_of_padded (by decide +kernel)
  have hfull : (oneRegistry "primary" elsewhere).registryOptions (Text.trim " primary") =
      elsewhere := by
    rw [registryOptions, htrim, get?_oneRegistry]
    rfl
  have hpadded : ((oneRegistry "primary" elsewhere).registryOptions " primary").canonical? =
      .ok { name := "primary" } := by
    rw [hkeys.canonical?_of_padded (by decide +kernel) (by decide +kernel), htrim]
    rfl
  have htrimmed : ((oneRegistry "primary" elsewhere).registryOptions
      (Text.trim " primary")).canonical? = .ok elsewhere :=
    (canonical?_trimmed _ (by decide +kernel)).trans (congrArg Except.ok hfull)
  refine ⟨fun hall => ?_, hpadded, ⟨{}, ?_⟩, htrimmed, ?_⟩
  · have he := hall _ hkeys " primary"
    rw [hpadded, htrimmed] at he
    cases he
  · rw [hbare]
    rfl
  · rw [hfull]
    exact RegistryOptions.openRegistry_eq_error_iff.2 ⟨_, rfl, by decide +kernel⟩

end Settings
end SchemaHerald
