import SchemaHerald.CommandLine.Publish
import SchemaHerald.Proofs.BackendChecks
import SchemaHerald.Proofs.SettingsPrecedence

/-!
# What can be prepared for publishing

Before `publish` asks for anything the registry is opened, the metadata are read, and so are the files.
Each of these steps may fail. `prepare_isOk_iff` says of all of them together when there is a job, in
terms of the sources of the settings and of the arguments alone, and `prepare_spec` what the job is.
-/
namespace SchemaHerald.CommandLine

/-! ## Results -/

section Results

variable {α β ε δ : Type}

/-- What is done in two steps succeeds exactly if both steps do. -/
theorem bind_eq_ok_iff {x : Except ε α} {f : α → Except ε β} {b : β} :
    x >>= f = .ok b ↔ ∃ a, x = .ok a ∧ f a = .ok b := by
  rcases x with e | a <;> simp [bind, Except.bind]

theorem mapError_eq_ok_iff {x : Except ε α} {f : ε → δ} {a : α} :
    x.mapError f = .ok a ↔ x = .ok a := by
  rcases x with e | a <;> simp [Except.mapError]

theorem pure_eq_ok_iff {a b : α} : (pure a : Except ε α) = .ok b ↔ b = a := by
  simp [pure, Except.pure, eq_comm]

/-- What is read element by element is there exactly if every element can be read. -/
theorem mapM_eq_ok_iff {f : α → Except ε β} {xs : List α} {ys : List β} :
    xs.mapM f = .ok ys ↔ List.Forall₂ (fun x y => f x = .ok y) xs ys := by
  induction xs generalizing ys with
  | nil => rw [List.mapM_nil, pure_eq_ok_iff, List.forall₂_nil_left_iff]
  | cons x xs ih =>
    simp only [List.mapM_cons, bind_eq_ok_iff, pure_eq_ok_iff, List.forall₂_cons_left_iff, ih]
    constructor
    · rintro ⟨y, hy, ys', hys, rfl⟩
      exact ⟨y, ys', hy, hys, rfl⟩
    · rintro ⟨y, ys', hy, hys, rfl⟩
      exact ⟨y, hy, ys', hys, rfl⟩

end Results

/-! ## Arguments -/

theorem files_of_readPublish {arguments : List Text.Raw} {o : PublishOptions}
    (h : readPublish arguments = .ok (.publish o)) : o.files ≠ [] := by
  obtain ⟨g, -, hg⟩ := bind_eq_ok_iff.1 h
  cases hempty : g.operands.isEmpty with
  | true =>
    rw [hempty] at hg
    cases hg
  | false =>
    rw [hempty] at hg
    cases hg
    exact List.isEmpty_eq_false_iff.1 hempty

/-- A command that publishes has files. -/
theorem files_of_readCommand {name : Text.Raw} {arguments : List Text.Raw} {o : PublishOptions}
    (h : readCommand name arguments = .ok (.publish o)) : o.files ≠ [] := by
  unfold readCommand at h
  split at h
  · exact files_of_readPublish h
  · obtain ⟨g, -, hg⟩ := bind_eq_ok_iff.1 h
    cases hg
  · obtain ⟨g, -, hg⟩ := bind_eq_ok_iff.1 h
    cases hg
  · unfold readHelp at h
    repeat' split at h
    all_goals cases h
  · cases h

theorem files_of_readFrom {seen : List Switch} {arguments : List Text.Raw} {o : PublishOptions}
    (h : readFrom seen arguments = .ok (.publish o)) : o.files ≠ [] := by
  induction arguments generalizing seen with
  | nil => cases h
  | cons argument rest ih =>
    unfold readFrom at h
    split at h
    · cases h
    · split at h
      · exact files_of_readCommand h
      · obtain ⟨g, -, hg⟩ := bind_eq_ok_iff.1 h
        exact ih hg

/-- **A command line that asks for publishing** names files. -/
theorem files_of_ofArguments {arguments : List Text.Raw} {o : PublishOptions}
    (h : Invocation.ofArguments arguments = .publish o) : o.files ≠ [] := by
  unfold Invocation.ofArguments at h
  split at h
  · rename_i invocation hread
    exact files_of_readFrom (h ▸ hread)
  · rename_i stop hstop
    cases stop <;> cases h

/-! ## Metadata and files -/

/-- A text is taken apart if it has an equals sign. -/
theorem isSome_splitEquals? {entry : String} : (splitEquals? entry).isSome ↔ '=' ∈ entry.toList := by
  have hdrop : entry.toList.dropWhile (· != '=') = [] ↔ ¬ '=' ∈ entry.toList := by
    induction entry.toList with
    | nil => simp
    | cons c cs ih =>
      rw [List.dropWhile_cons, List.mem_cons]
      by_cases hc : c = '='
      · simp [hc]
      · simp [hc, Ne.symm hc, ih]
  unfold splitEquals?
  split
  · rename_i c value he
    refine iff_of_true rfl ?_
    by_contra hno
    rw [hdrop.2 hno] at he
    cases he
  · rename_i he
    exact iff_of_false (by simp) (hdrop.1 he)

/-- **Metadata are read** if every entry has an equals sign. -/
theorem readMetadata_isOk_iff {entries : List String} :
    (∃ metadata, readMetadata entries = .ok metadata) ↔
      ∀ entry ∈ entries, '=' ∈ entry.toList := by
  unfold readMetadata
  generalize ({} : Metadata) = start
  induction entries generalizing start with
  | nil => simp [pure, Except.pure]
  | cons entry entries ih =>
    rw [List.foldlM_cons, List.forall_mem_cons, ← isSome_splitEquals?]
    cases hsplit : splitEquals? entry with
    | none => simp [bind, Except.bind]
    | some e =>
      simp only [bind, Except.bind, Option.isSome_some, true_and]
      exact ih _

/-- **A path gives a name** if what it ends in is written in that name's octets, but for the extension. -/
theorem stem?_eq_some_iff {path : Text.Raw} {stem : String} : Path.stem? path = some stem ↔
    ∃ name, Path.fileName? path = some name ∧ Path.dropExtension name = Text.Raw.ofText stem := by
  simp only [Path.stem?, Option.bind_eq_some_iff, Text.Raw.text?_eq_some_iff]

/-- **A schema is read** from a text whose path ends in a name. -/
theorem readSchema_eq_ok_iff {s : Surroundings} {metadata : Metadata} {file : Text.Raw}
    {d : Definition} : readSchema s metadata file = .ok d ↔ ∃ content stem,
      s.look file = .text content ∧ Path.stem? file = some stem ∧
        d = { schema := { name := stem, document := content }, metadata } := by
  unfold readSchema
  cases hlook : s.look file with
  | text content =>
    cases hstem : Path.stem? file with
    | none => simp [FileState.read]
    | some stem => simp [FileState.read, eq_comm]
  | _ => simp [FileState.read]

/-- The names of the schemas in files: those of the files, without extensions and blanks, as far as they
are texts. -/
def schemaNames (files : List Text.Raw) : List String :=
  files.filterMap fun file => (Path.stem? file).map Text.trim

/-- A file can be read as a text, and its name without the extension is a text. -/
def Surroundings.HasSchema (s : Surroundings) (file : Text.Raw) : Prop :=
  (∃ content, s.look file = .text content) ∧
    ∃ stem name, Path.fileName? file = some name ∧ Path.dropExtension name = Text.Raw.ofText stem

theorem readSchema_isOk_iff (s : Surroundings) (metadata : Metadata) (file : Text.Raw) :
    (∃ d, readSchema s metadata file = .ok d) ↔ s.HasSchema file := by
  simp only [readSchema_eq_ok_iff, Surroundings.HasSchema, ← stem?_eq_some_iff]
  constructor
  · rintro ⟨d, content, stem, hlook, hstem, -⟩
    exact ⟨⟨content, hlook⟩, stem, hstem⟩
  · rintro ⟨⟨content, hlook⟩, stem, hstem⟩
    exact ⟨_, content, stem, hlook, hstem, rfl⟩

/-- **The files are read** if each one can be and has a name. -/
theorem readSchemas_isOk_iff (s : Surroundings) (metadata : Metadata) (files : List Text.Raw) :
    (∃ ds, files.mapM (readSchema s metadata) = .ok ds) ↔ ∀ file ∈ files, s.HasSchema file := by
  simp only [mapM_eq_ok_iff]
  induction files with
  | nil => simp
  | cons file files ih =>
    rw [List.forall_mem_cons, ← ih, ← readSchema_isOk_iff s metadata]
    constructor
    · rintro ⟨ds, hds⟩
      cases hds with
      | cons hd hrest => exact ⟨⟨_, hd⟩, _, hrest⟩
    · rintro ⟨⟨d, hd⟩, ds, hds⟩
      exact ⟨d :: ds, .cons hd hds⟩

/-- **The schemas that are read** have the names of the files, and there is one for each. -/
theorem names_readSchemas {s : Surroundings} {metadata : Metadata} {files : List Text.Raw}
    {ds : List Definition} (h : files.mapM (readSchema s metadata) = .ok ds) :
    ds.map (·.name) = schemaNames files ∧ ds.length = files.length := by
  have hall := mapM_eq_ok_iff.1 h
  refine ⟨?_, hall.length_eq.symm⟩
  clear h
  induction hall with
  | nil => rfl
  | cons hd hrest ih =>
    obtain ⟨content, stem, -, hstem, rfl⟩ := readSchema_eq_ok_iff.1 hd
    rw [List.map_cons, ih, schemaNames, schemaNames, List.filterMap_cons_some (b := Text.trim stem)]
    · rfl
    · rw [hstem]
      rfl

/-! ## The registry -/

/-- The name of a backend does not change when references are expanded. -/
theorem unknown_iff_of_expands {env : Table String String} {found found' : Option Backend}
    (h : Option.Rel (Backend.Expands env) found found') :
    (∃ backend, found' = some backend ∧ BackendKind.ofName? backend.name = none) ↔
      ∃ backend, found = some backend ∧ BackendKind.ofName? backend.name = none := by
  cases h with
  | none => rfl
  | some hb => simp [hb.name]

/-- **A registry is opened** if there is a backend of a known name under the registry's name, or
none. -/
theorem registryOptions_opens_iff {env : Table String String} {entry : Option RegistryOptions}
    {settings : Settings} {name : String}
    (h : Option.Rel (RegistryOptions.Expands env) entry (settings.described? name)) :
    (∃ memory, (settings.registryOptions name).openRegistry = .ok memory) ↔
      ∀ options backend, entry = some options → options.backend = some backend →
        BackendKind.ofName? backend.name ≠ none := by
  have hbackend : (settings.registryOptions name).backend =
      (settings.described? name).bind (·.backend) := settings.backend_registryOptions name
  have hrel : Option.Rel (Backend.Expands env) (entry.bind (·.backend))
      ((settings.described? name).bind (·.backend)) := by
    generalize settings.described? name = found at h
    cases h with
    | none => exact .none
    | some hexpands => exact hexpands.backend
  rw [RegistryOptions.openRegistry_eq_ok_iff, RegistryOptions.openRegistry_eq_error_iff, hbackend,
    unknown_iff_of_expands hrel]
  simp only [Option.bind_eq_some_iff, not_exists, not_and]
  constructor
  · intro hknown options backend hentry hb
    exact hknown backend ⟨options, hentry, hb⟩
  · rintro hknown backend ⟨options, hentry, hb⟩
    exact hknown options backend hentry hb

/-- A registry that has been opened is empty. -/
theorem memory_of_openRegistry {o : RegistryOptions} {memory : MemoryRegistry}
    (h : o.openRegistry = .ok memory) : memory = { baseUrl := memory.baseUrl } := by
  unfold RegistryOptions.openRegistry at h
  split at h
  · cases h
    rfl
  · split at h
    · cases h
      rfl
    · cases h

/-! ## Jobs -/

namespace Job

variable {s : Surroundings} {o : PublishOptions} {j : Job}

/-- **A job is there** if every step of its preparation is, and it is put together from what they
give. -/
theorem prepare_eq_ok_iff :
    prepare s o = .ok j ↔ ∃ settings memory metadata definitions,
      s.settings (o.project.getD here) (Settings.ofArguments? o.registry o.maxConcurrency) =
        .ok settings ∧
      (settings.registryOptions settings.defaultRegistry).openRegistry = .ok memory ∧
      readMetadata o.metadata = .ok metadata ∧
      o.files.mapM (readSchema s metadata) = .ok definitions ∧
      j = {
        registry := settings.defaultRegistry
        options := settings.registryOptions settings.defaultRegistry
        memory, definitions
        publisher := (settings.publisher.bind (·.id)).getD s.newId
        limit := (settings.publish.getD .default).maxConcurrency
        timeout := ((settings.publish.getD .default).timeoutSecs).getD usualTimeout } := by
  unfold prepare
  simp only [bind_eq_ok_iff, mapError_eq_ok_iff, pure_eq_ok_iff]
  constructor
  · rintro ⟨settings, hsettings, memory, hmemory, metadata, hmetadata, definitions, hfiles, rfl⟩
    exact ⟨settings, memory, metadata, definitions, hsettings, hmemory, hmetadata, hfiles, rfl⟩
  · rintro ⟨settings, memory, metadata, definitions, hsettings, hmemory, hmetadata, hfiles, rfl⟩
    exact ⟨settings, hsettings, memory, hmemory, metadata, hmetadata, definitions, hfiles, rfl⟩

/-- Nothing was published to the registry of a job before. -/
theorem memory_of_prepare (h : prepare s o = .ok j) : j.memory = { baseUrl := j.memory.baseUrl } := by
  obtain ⟨settings, memory, metadata, definitions, -, hmemory, -, -, rfl⟩ := prepare_eq_ok_iff.1 h
  exact memory_of_openRegistry hmemory

/-- The registry to publish to: that of the options, of the variable, of the project, of the home
directory, or the default one. -/
def registryName (s : Surroundings) (o : PublishOptions) (home project : Option Settings) : String :=
  (o.registry.or ((s.env.get? Settings.registryVariable).or
    ((project.bind Settings.target?).or (home.bind Settings.target?)))).getD
      Settings.defaultRegistryName

theorem limit_of_settings (settings : Settings) :
    (settings.publish.getD .default).maxConcurrency = settings.maxConcurrency? := by
  unfold Settings.maxConcurrency?
  cases settings.publish <;> rfl

theorem timeout_of_settings (settings : Settings) :
    ((settings.publish.getD .default).timeoutSecs).getD usualTimeout =
      settings.timeoutSecs?.getD usualTimeout := by
  unfold Settings.timeoutSecs?
  cases settings.publish <;> rfl

/-- The limit on publishes at once: that of the options, of the variable, of the project or of the home
directory, if there is one. -/
def limit? (s : Surroundings) (o : PublishOptions) (home project : Option Settings) : Option Nat :=
  o.maxConcurrency.or ((Settings.environmentLimit? s.env).or
    ((project.bind Settings.maxConcurrency?).or (home.bind Settings.maxConcurrency?)))

/-- How many seconds the batch may take: as the project says, or the home directory, or else the usual
time. -/
def seconds (home project : Option Settings) : Nat :=
  ((project.bind Settings.timeoutSecs?).or (home.bind Settings.timeoutSecs?)).getD usualTimeout

/-- **What is needed for a job**: the backend under the registry's very name, if there is one, is
known, every entry of the metadata has an equals sign, and every file can be read and has a name. -/
structure Preparable (s : Surroundings) (o : PublishOptions) (home project : Option Settings) :
    Prop where
  backend : ∀ options backend,
    (project.bind (Settings.described? (registryName s o home project))).or
        (home.bind (Settings.described? (registryName s o home project))) = some options →
      options.backend = some backend → BackendKind.ofName? backend.name ≠ none
  metadata : ∀ entry ∈ o.metadata, '=' ∈ entry.toList
  files : ∀ file ∈ o.files, s.HasSchema file

/-- **What a job is**, in terms of what it was prepared from. -/
structure Prepared (s : Surroundings) (o : PublishOptions) (home project : Option Settings)
    (j : Job) : Prop where
  /-- The registry has the name that was chosen. -/
  registry : j.registry = registryName s o home project
  name : j.options.name = registryName s o home project
  /-- There is a schema for each file, with its name. -/
  names : j.definitions.map (·.name) = schemaNames o.files
  count : j.definitions.length = o.files.length
  /-- The batch is limited, and there is time for it, as the settings say. -/
  limit : j.limit = limit? s o home project
  timeout : j.timeout = seconds home project

variable {home project : Option Settings}

/-- **What is prepared** when the settings can be loaded. -/
theorem prepared (hhome : s.homeSettings = .ok home)
    (hproject : s.settingsOf (o.project.getD here) = .ok project) :
    ((∃ j, prepare s o = .ok j) ↔ Preparable s o home project) ∧
      ∀ j, prepare s o = .ok j → Prepared s o home project j := by
  let arguments := Settings.ofArguments? o.registry o.maxConcurrency
  let settings := Settings.ofSources home project s.env arguments
  have hsettings : s.settings (o.project.getD here) arguments = .ok settings :=
    s.settings_eq hhome hproject
  have hprecedence :=
    Settings.precedence_ofSources s.env o.registry o.maxConcurrency home project
  have hname : settings.defaultRegistry = registryName s o home project :=
    congrArg (Option.getD · Settings.defaultRegistryName) hprecedence.target
  have hopens := registryOptions_opens_iff (hprecedence.described (registryName s o home project))
  refine ⟨⟨?_, fun h => ?_⟩, fun j hj => ?_⟩
  · rintro ⟨j, hj⟩
    obtain ⟨settings', memory, metadata, definitions, hs, hmemory, hmetadata, hfiles, -⟩ :=
      prepare_eq_ok_iff.1 hj
    cases hsettings.symm.trans hs
    exact ⟨hopens.1 ⟨memory, hname ▸ hmemory⟩, readMetadata_isOk_iff.1 ⟨metadata, hmetadata⟩,
      (readSchemas_isOk_iff s metadata o.files).1 ⟨definitions, hfiles⟩⟩
  · obtain ⟨memory, hmemory⟩ := hopens.2 h.backend
    obtain ⟨metadata, hmetadata⟩ := readMetadata_isOk_iff.2 h.metadata
    obtain ⟨definitions, hfiles⟩ := (readSchemas_isOk_iff s metadata o.files).2 h.files
    exact ⟨_, prepare_eq_ok_iff.2 ⟨settings, memory, metadata, definitions, hsettings,
      hname.symm ▸ hmemory, hmetadata, hfiles, rfl⟩⟩
  · obtain ⟨settings', memory, metadata, definitions, hs, -, -, hfiles, rfl⟩ :=
      prepare_eq_ok_iff.1 hj
    cases hsettings.symm.trans hs
    obtain ⟨hnames, hcount⟩ := names_readSchemas hfiles
    exact {
      registry := hname
      name := hname ▸ settings.name_registryOptions _
      names := hnames
      count := hcount
      limit := (limit_of_settings settings).trans hprecedence.maxConcurrency_eq
      timeout := by
        rw [timeout_of_settings, hprecedence.timeoutSecs]
        rfl }

end Job

end SchemaHerald.CommandLine
