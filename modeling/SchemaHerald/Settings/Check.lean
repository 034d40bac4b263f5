import SchemaHerald.Settings

/-!
# Checking settings

`Settings.check` reports what cannot work as errors and what is probably a slip as warnings;
settings without an error are valid. `Report.text` is the report for people to read.

The registries are checked one by one; their errors are listed by field and, for one field, by
message.
-/
namespace SchemaHerald

/-- Something in the settings that cannot work. -/
structure Problem where
  /-- The setting, as a path of names. -/
  field : String
  /-- What is wrong with it. -/
  message : String
deriving DecidableEq, Repr, Inhabited

/-- Something in the settings that is probably not meant. -/
structure Warning where
  /-- The setting, as a path of names. -/
  field : String
  /-- What is odd about it. -/
  message : String
  /-- What to do about it. -/
  suggestion : Option String := none
deriving DecidableEq, Repr, Inhabited

/-- The result of a check. -/
structure Report where
  /-- Whether the settings can be used. -/
  valid : Bool
  /-- What cannot work. -/
  errors : List Problem
  /-- What is probably not meant. -/
  warnings : List Warning
deriving DecidableEq, Repr, Inhabited

/-- Whether one problem is listed before another or in the same place: by field, then by message. -/
def Problem.le (a b : Problem) : Bool :=
  (compare a.field b.field).then (compare a.message b.message) != .gt

namespace Settings

/-- The version that this program knows. -/
def knownVersion : String := "1.0"

/-- The errors of the version. -/
def versionErrors (s : Settings) : List Problem :=
  if s.version.isEmpty then [⟨"version", "Version is required"⟩] else []

/-- The warnings of the version. -/
def versionWarnings (s : Settings) : List Warning :=
  if s.version.isEmpty || s.version == knownVersion then []
  else [⟨"version", s!"Unknown version: {s.version}",
    some "Currently supported version is \"1.0\" only"⟩]

/-- The errors of the publisher's identity. -/
def identityErrors (s : Settings) : List Problem :=
  match s.publisher.bind (·.id) with
  | some id =>
    if Text.isBlankText id then [⟨"publisher.id", "publisher id must not be blank"⟩] else []
  | none => []

/-- The warnings of the publisher's identity: where registries are described at all, the default one
should be among them. -/
def identityWarnings (s : Settings) : List Warning :=
  match s.publisher.bind (·.defaultRegistry) with
  | some name =>
    if s.registries.isEmpty || s.registries.contains name then []
    else [⟨"publisher.defaultRegistry", s!"Registry '{name}' is not defined under registries",
      some "Add it to registries or fix the name"⟩]
  | none => []

/-- The field under which the backend of a registry is reported. -/
def backendField (registry : String) : String := s!"registries.{registry}.backend.name"

/-- The errors of the backend of one registry. -/
def backendErrors (registry : String) (backend : Backend) : List Problem :=
  if Text.isBlankText backend.name then [⟨backendField registry, "backend name is required"⟩]
  else if (BackendKind.ofName? backend.name).isNone then
    [⟨backendField registry,
      s!"unknown backend '{backend.name}' (supported: {BackendKind.supported})"⟩]
  else []

/-- The errors of one registry. -/
def registryErrors (name : String) (options : RegistryOptions) : List Problem :=
  (if Text.isBlankText name then [⟨"registries", "registry names must not be blank"⟩] else []) ++
    match options.backend with
    | some backend => backendErrors name backend
    | none => []

/-- The errors of all registries, in the order in which they are listed. -/
def registriesErrors (s : Settings) : List Problem :=
  (s.registries.entries.flatMap fun e => registryErrors e.1 e.2).mergeSort Problem.le

/-- The errors of the limits. -/
def limitErrors (s : Settings) : List Problem :=
  match s.publish with
  | some limits =>
    (if limits.maxConcurrency == some 0 then
      [⟨"publish.maxConcurrency", "maxConcurrency must be at least 1"⟩] else []) ++
    (if limits.timeoutSecs == some 0 then
      [⟨"publish.timeoutSecs", "timeoutSecs must be at least 1"⟩] else [])
  | none => []

/-- **The check** of settings. -/
def check (s : Settings) : Report :=
  let errors := s.versionErrors ++ s.identityErrors ++ s.registriesErrors ++ s.limitErrors
  { valid := errors.isEmpty, errors, warnings := s.versionWarnings ++ s.identityWarnings }

end Settings

namespace Report

/-- The lines of one warning. -/
def warningLines (w : Warning) : List String :=
  s!"  - [{w.field}] {w.message}" :: (w.suggestion.map fun s => s!"    Suggestion: {s}").toList

/-- The lines of a report. -/
def lines (r : Report) : List String :=
  [if r.valid then "✅ Configuration validation succeeded" else "❌ Configuration has errors"] ++
  (if r.errors.isEmpty then []
    else "\n🔴 Errors:" :: r.errors.map fun e => s!"  - [{e.field}] {e.message}") ++
  (if r.warnings.isEmpty then [] else "\n🟡 Warnings:" :: r.warnings.flatMap warningLines)

/-- The report for people to read. -/
def text (r : Report) : String := "\n".intercalate r.lines

end Report
end SchemaHerald
