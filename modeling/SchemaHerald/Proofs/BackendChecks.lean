import SchemaHerald.MemoryRegistry
import SchemaHerald.Proofs.TableEntries
import SchemaHerald.Settings.Check
import SchemaHerald.Settings.Reference

/-!
# The check and the opening of registries

Two places look at the backend of a registry: the check of the settings, which reports under the
field of that registry, and the opening of the registry, which fails. The check looks for a blank
name before it looks for a known one, the opening does not; and the check goes by the key of an
entry, while the opening goes by options that were renamed to it.

`backendErrors_eq_nil_iff` says that one backend is reported exactly if it cannot be opened, and
`errorsAt_backendField` picks the report on one registry out of the whole check, whatever else is
listed there and in whatever order. `check_agrees` puts the two together.
-/
namespace SchemaHerald

/-! ## Names of backends -/

namespace BackendKind

/-- No backend has a name of nothing but blanks. -/
theorem ofName?_of_blank {name : String} (h : Text.isBlankText name = true) :
    ofName? name = none := by
  have htrim : Text.trim name = "" := String.isEmpty_iff.1 h
  rw [ofName?, htrim]
  decide

end BackendKind

namespace RegistryOptions

/-- **Opening fails** exactly if there is a backend and its name is not known. -/
theorem openRegistry_eq_error_iff {o : RegistryOptions} :
    (∃ f, o.openRegistry = .error f) ↔
      ∃ backend, o.backend = some backend ∧ BackendKind.ofName? backend.name = none := by
  unfold openRegistry
  rcases hb : o.backend with _ | backend
  · simp
  · rcases hk : BackendKind.ofName? backend.name with _ | ⟨⟨⟩⟩ <;> simp [hk]

/-- A registry is opened unless that fails. -/
theorem openRegistry_eq_ok_iff {o : RegistryOptions} :
    (∃ m, o.openRegistry = .ok m) ↔ ¬ ∃ f, o.openRegistry = .error f := by
  rcases o.openRegistry with f | m <;> simp

/-- What a failure to open says does not depend on the option values of the backend. -/
theorem openRegistry_expand_eq_error_iff (env : Table String String) {o : RegistryOptions}
    {f : Failure} : (o.expand env).openRegistry = .error f ↔ o.openRegistry = .error f := by
  unfold openRegistry expand Backend.expand
  rcases hb : o.backend with _ | backend
  · simp
  · rcases hk : BackendKind.ofName? backend.name with _ | ⟨⟨⟩⟩ <;> simp [hk]

end RegistryOptions

/-! ## Fields -/

namespace Settings

theorem toList_backendField (n : String) :
    (backendField n).toList = "registries.".toList ++ (n.toList ++ ".backend.name".toList) := by
  have htext : backendField n = "registries." ++ n ++ ".backend.name" := rfl
  rw [htext, String.toList_append, String.toList_append, List.append_assoc]

/-- **No two registries share a field**, whatever characters their names have. -/
theorem backendField_inj {n n' : String} : backendField n = backendField n' ↔ n = n' := by
  refine ⟨fun h => ?_, fun h => h ▸ rfl⟩
  have hlist := congrArg String.toList h
  rw [toList_backendField, toList_backendField] at hlist
  exact String.toList_inj.1 (List.append_cancel_right (List.append_cancel_left hlist))

/-- A field that is not below the registries is not the one of a backend. -/
theorem ne_backendField {field n : String}
    (h : "registries.".toList.isPrefixOf field.toList = false) : field ≠ backendField n := by
  rintro rfl
  rw [toList_backendField, List.isPrefixOf_iff_prefix.2 (List.prefix_append ..)] at h
  cases h

/-! ## What is reported on one registry -/

/-- A backend is reported at most once, and under the field of its registry. -/
theorem backendErrors_field {registry : String} {backend : Backend} {p : Problem}
    (h : p ∈ backendErrors registry backend) : p.field = backendField registry := by
  unfold backendErrors at h
  split at h
  · rw [List.mem_singleton.1 h]
  · split at h
    · rw [List.mem_singleton.1 h]
    · cases h

theorem length_backendErrors (registry : String) (backend : Backend) :
    (backendErrors registry backend).length =
      if BackendKind.ofName? backend.name = none then 1 else 0 := by
  unfold backendErrors
  by_cases hblank : Text.isBlankText backend.name = true
  · simp [hblank, BackendKind.ofName?_of_blank hblank]
  · by_cases hk : BackendKind.ofName? backend.name = none <;> simp [hblank, hk]

end Settings

/-- The errors that a report has for one field. -/
def Report.errorsAt (r : Report) (field : String) : List Problem :=
  r.errors.filter (·.field == field)

namespace Settings

variable (s : Settings) (n : String)

/-- Of the errors of one registry, those for the field of a backend are the ones of its own
backend. -/
theorem filter_registryErrors (name : String) (options : RegistryOptions) :
    (registryErrors name options).filter (·.field == backendField n) =
      if name = n then options.backend.elim [] (backendErrors n) else [] := by
  have hnames : ("registries" == backendField n) = false :=
    beq_false_of_ne (ne_backendField (by decide))
  have hfilter : ∀ backend : Backend,
      (backendErrors name backend).filter (·.field == backendField n) =
        if name = n then backendErrors n backend else [] := by
    intro backend
    split
    · rename_i h
      subst h
      exact List.filter_eq_self.2 fun p hp => beq_iff_eq.2 (backendErrors_field hp)
    · rename_i h
      refine List.filter_eq_nil_iff.2 fun p hp heq => h ?_
      rw [backendErrors_field hp] at heq
      exact backendField_inj.1 (beq_iff_eq.1 heq)
  have hblank : (if Text.isBlankText name then
      [(⟨"registries", "registry names must not be blank"⟩ : Problem)] else []).filter
        (·.field == backendField n) = [] := by
    split <;> simp [hnames]
  rw [registryErrors, List.filter_append, hblank, List.nil_append]
  rcases options.backend with _ | backend
  · simp
  · exact hfilter backend

/-- **The report on one registry**: whatever else the check lists, for the field of a backend it
lists what is wrong with the backend of that entry. -/
theorem errorsAt_backendField :
    s.check.errorsAt (backendField n) =
      ((s.registries.get? n).bind (·.backend)).elim [] (backendErrors n) := by
  have hversion : s.versionErrors.filter (·.field == backendField n) = [] := by
    have hne : ("version" == backendField n) = false :=
      beq_false_of_ne (ne_backendField (by decide))
    unfold versionErrors
    split <;> simp [hne]
  have hidentity : s.identityErrors.filter (·.field == backendField n) = [] := by
    have hne : ("publisher.id" == backendField n) = false :=
      beq_false_of_ne (ne_backendField (by decide))
    unfold identityErrors
    split
    · split <;> simp [hne]
    · rfl
  have hlimit : s.limitErrors.filter (·.field == backendField n) = [] := by
    have hne : ("publish.maxConcurrency" == backendField n) = false :=
      beq_false_of_ne (ne_backendField (by decide))
    have hne' : ("publish.timeoutSecs" == backendField n) = false :=
      beq_false_of_ne (ne_backendField (by decide))
    unfold limitErrors
    split
    · split <;> split <;> simp [hne, hne']
    · rfl
  -- the errors of the registries before they are sorted
  have hregistries :
      (s.registries.entries.flatMap fun e => registryErrors e.1 e.2).filter
          (·.field == backendField n) =
        ((s.registries.get? n).bind (·.backend)).elim [] (backendErrors n) := by
    rw [List.filter_flatMap]
    simp only [filter_registryErrors]
    rw [s.registries.flatMap_at n fun o => o.backend.elim [] (backendErrors n)]
    rcases s.registries.get? n with _ | o <;> rfl
  have hperm := (List.mergeSort_perm
    (s.registries.entries.flatMap fun e => registryErrors e.1 e.2) Problem.le).filter
      (·.field == backendField n)
  rw [hregistries] at hperm
  have hsorted : s.registriesErrors.filter (·.field == backendField n) =
      ((s.registries.get? n).bind (·.backend)).elim [] (backendErrors n) := by
    -- there is at most one, so that sorting has nothing to move
    generalize ((s.registries.get? n).bind (·.backend)) = found at hperm ⊢
    rcases found with _ | backend
    · exact List.perm_nil.1 hperm
    · have hlength := length_backendErrors n backend
      split at hlength
      · obtain ⟨p, hp⟩ := List.length_eq_one_iff.1 hlength
        rw [Option.elim_some, hp] at hperm ⊢
        exact List.perm_singleton.1 hperm
      · rw [Option.elim_some, List.eq_nil_of_length_eq_zero hlength] at hperm ⊢
        exact List.perm_nil.1 hperm
  simp only [Report.errorsAt, check, List.filter_append, hversion, hidentity, hlimit, hsorted,
    List.nil_append, List.append_nil]

/-- Options are those of the entry as far as the backend goes. -/
theorem backend_registryOptions :
    (s.registryOptions n).backend = (s.registries.get? n).bind (·.backend) := by
  unfold registryOptions
  rcases s.registries.get? n with _ | o <;> rfl

/-- Options have the name that was asked for. -/
theorem name_registryOptions : (s.registryOptions n).name = n := by
  unfold registryOptions
  rcases s.registries.get? n with _ | o <;> rfl

/-- **One error or none** for the backend of a registry, as it cannot or can be opened. -/
theorem length_errorsAt :
    ((∃ f, (s.registryOptions n).openRegistry = .error f) ∧
      (s.check.errorsAt (backendField n)).length = 1) ∨
    ((∃ m, (s.registryOptions n).openRegistry = .ok m) ∧
      (s.check.errorsAt (backendField n)).length = 0) := by
  rw [RegistryOptions.openRegistry_eq_ok_iff, RegistryOptions.openRegistry_eq_error_iff,
    backend_registryOptions, errorsAt_backendField]
  rcases (s.registries.get? n).bind (·.backend) with _ | backend
  · simp
  · simp only [Option.elim_some, length_backendErrors, Option.some.injEq, exists_eq_left']
    by_cases hk : BackendKind.ofName? backend.name = none <;> simp [hk]

/-! ## References to variables -/

/-- Settings are checked the same before and after the references in them are expanded. -/
theorem check_expand (env : Table String String) : (s.expand env).check = s.check := by
  have hentries : (s.expand env).registries.entries =
      s.registries.entries.map fun e => (e.1, e.2.expand env) := rfl
  have hregistry : ∀ (name : String) (o : RegistryOptions),
      registryErrors name (o.expand env) = registryErrors name o := by
    intro name o
    unfold registryErrors RegistryOptions.expand
    rcases o.backend with _ | backend <;> rfl
  have herrors : (s.expand env).registriesErrors = s.registriesErrors := by
    simp only [registriesErrors, hentries, List.flatMap_map, hregistry]
  have hempty : (s.expand env).registries.isEmpty = s.registries.isEmpty := by
    simp [Table.isEmpty, hentries]
  have hcontains : ∀ name, (s.expand env).registries.contains name = s.registries.contains name := by
    intro name
    have hget := Table.get?_map (·.expand env) s.registries name
    rw [Table.contains, Table.contains, Settings.expand, hget, Option.isSome_map]
  have hwarnings : (s.expand env).identityWarnings = s.identityWarnings := by
    simp only [identityWarnings, hempty, hcontains]
    rfl
  simp only [check, herrors, hwarnings]
  rfl

theorem registryOptions_expand (env : Table String String) :
    (s.expand env).registryOptions n = (s.registryOptions n).expand env := by
  have hget : (s.expand env).registries.get? n = (s.registries.get? n).map (·.expand env) :=
    Table.get?_map _ s.registries n
  unfold registryOptions
  rw [hget]
  rcases s.registries.get? n with _ | o <;> rfl

/-! ## The agreement -/

theorem errors_of_valid {s : Settings} (h : s.check.valid = true) : s.check.errors = [] :=
  List.isEmpty_iff.1 h

/-- **The check and the opening of registries agree.** Under every name the check reports the backend
exactly if the registry cannot be opened, and then once; so that with settings that pass the check
every registry can be opened, described or not. Expanding the references of the settings changes
neither what is reported nor which failures there are. -/
theorem check_agrees (env : Table String String) :
    (∀ n, ((s.check.errorsAt (backendField n)).length = 1 ↔
        ∃ f, (s.registryOptions n).openRegistry = .error f) ∧
      (s.check.errorsAt (backendField n)).length ≤ 1) ∧
    (s.check.valid = true → ∀ n, ∃ m, (s.registryOptions n).openRegistry = .ok m) ∧
    (s.expand env).check = s.check ∧
    (∀ n f, ((s.expand env).registryOptions n).openRegistry = .error f ↔
      (s.registryOptions n).openRegistry = .error f) := by
  refine ⟨fun n => ?_, fun hvalid n => ?_, s.check_expand env, fun n f => ?_⟩
  · obtain ⟨hopen, hlength⟩ | ⟨hopen, hlength⟩ := s.length_errorsAt n
    · rw [hlength]
      exact ⟨iff_of_true rfl hopen, Nat.le_refl 1⟩
    · rw [hlength]
      exact ⟨iff_of_false (by decide) (RegistryOptions.openRegistry_eq_ok_iff.1 hopen), by decide⟩
  · obtain ⟨-, hlength⟩ | ⟨hopen, -⟩ := s.length_errorsAt n
    · rw [Report.errorsAt, errors_of_valid hvalid] at hlength
      cases hlength
    · exact hopen
  · rw [registryOptions_expand]
    exact RegistryOptions.openRegistry_expand_eq_error_iff env

/-- Settings that describe two registries. -/
def twoRegistries (first second : String) : Settings where
  version := "1.0"
  registries := .ofList
    [("a", { backend := some { name := first } }), ("b", { backend := some { name := second } })]

/-- A name of blanks is reported and cannot be opened; where both names are known but for blanks and
case, the settings pass the check and every registry can be opened. -/
theorem check_agrees_twoRegistries :
    ((twoRegistries " Local" "\u00a0").check.errorsAt (backendField "b")).length = 1 ∧
    (twoRegistries " Local" "LOCAL\n").check.valid = true ∧
    ∀ n, ∃ m, ((twoRegistries " Local" "LOCAL\n").registryOptions n).openRegistry = .ok m := by
  have hfails : ∃ f, ((twoRegistries " Local" "\u00a0").registryOptions "b").openRegistry =
      .error f := by
    refine RegistryOptions.openRegistry_eq_error_iff.2 ⟨{ name := "\u00a0" }, ?_, ?_⟩ <;>
      decide +kernel
  have hvalid : (twoRegistries " Local" "LOCAL\n").check.valid = true := by decide +kernel
  exact ⟨((check_agrees _ ∅).1 "b").1.2 hfails, hvalid, (check_agrees _ ∅).2.1 hvalid⟩

end Settings
end SchemaHerald
