import SchemaHerald.Proofs.SettingsPrecedence
import SchemaHerald.Settings.Check

/-!
# The version of the settings in force

A file may give a version, but the layers of the environment and of the command line have one of
their own, the one of the defaults. As soon as one of them sets a part, whatever part it is, that
version replaces the version of the files, and with it goes the warning about a version that is not
known. `version_settings` says so for all files, variables and options; `version_replaced` is a
project whose version disappears when the publisher's id is set.
-/
namespace SchemaHerald
namespace Settings

/-- The version that the files give, the one of the project first. -/
def fileVersion (home project : Option Settings) : String :=
  ((project.bind version?).or (home.bind version?)).getD "1.0"

/-- Whether an option or a variable sets a part of the settings. -/
def setsPart (env : Table String String) (target : Option String) (limit : Option Nat) : Bool :=
  target.isSome || limit.isSome || (env.get? idVariable).isSome ||
    (env.get? registryVariable).isSome || (environmentLimit? env).isSome

theorem version?_eq_some {s : Settings} {v : String} (h : s.version? = some v) :
    s.version = v ∧ v ≠ "" := by
  unfold version? at h
  split at h
  · cases h
  · rename_i hne
    obtain rfl := Option.some.inj h
    exact ⟨rfl, fun he => hne (by rw [he]; rfl)⟩

/-- **The version** of settings put together from layers. -/
theorem version_ofSources (env : Table String String) (target : Option String) (limit : Option Nat)
    (home project : Option Settings) :
    (ofSources home project env (ofArguments? target limit)).version? =
      some (if setsPart env target limit then "1.0" else fileVersion home project) := by
  rw [layered_version.sources env target limit home project fun _ => rfl, version_ofParts?,
    version_ofParts?]
  have hdefault : version? Settings.default = some "1.0" := rfl
  rw [hdefault]
  by_cases harguments : target.isSome || limit.isSome
  · -- the command line is the uppermost layer
    simp [setsPart, harguments]
  · by_cases henvironment : (env.get? idVariable).isSome || (env.get? registryVariable).isSome ||
        (environmentLimit? env).isSome
    · simp_all [setsPart]
    · simp_all [setsPart, fileVersion]

/-- A version that is there is warned of unless it is the known one. -/
theorem versionWarnings_eq_nil_iff {s : Settings} (h : s.version ≠ "") :
    s.versionWarnings = [] ↔ s.version = "1.0" := by
  unfold versionWarnings
  by_cases hv : s.version = "1.0"
  · simp [hv, knownVersion]
  · simp [hv, h, knownVersion]

end Settings

namespace CommandLine.Surroundings

/-- **The version of the settings in force.** It is the one of the files as long as no option and no
variable sets a part, and `1.0` otherwise; it is never empty. So it is the one of the files exactly
if nothing else is set or the files say the same, and a version of the files that is not known is
warned of exactly if nothing else is set. -/
theorem version_settings (s : Surroundings) {project : Text.Raw} {target : Option String}
    {limit : Option Nat} {home file : Option Settings} (hhome : s.homeSettings = .ok home)
    (hfile : s.settingsOf project = .ok file) :
    ∃ t, s.settings project (Settings.ofArguments? target limit) = .ok t ∧
      t.version =
        (if Settings.setsPart s.env target limit then "1.0" else Settings.fileVersion home file) ∧
      t.version ≠ "" ∧
      (t.version = Settings.fileVersion home file ↔
        Settings.setsPart s.env target limit = false ∨ Settings.fileVersion home file = "1.0") ∧
      (t.versionWarnings = [] ↔
        Settings.setsPart s.env target limit = true ∨ Settings.fileVersion home file = "1.0") := by
  obtain ⟨hversion, hne⟩ := Settings.version?_eq_some
    (Settings.version_ofSources s.env target limit home file)
  refine ⟨_, s.settings_eq hhome hfile, hversion, by rwa [hversion], ?_, ?_⟩
  · rw [hversion]
    by_cases hset : Settings.setsPart s.env target limit
    · simp [hset, eq_comm]
    · simp [hset]
  · rw [Settings.versionWarnings_eq_nil_iff (by rwa [hversion]), hversion]
    by_cases hset : Settings.setsPart s.env target limit
    · simp [hset]
    · simp [hset]

/-- A project whose file gives a version that is not known, and nothing else. -/
def newerProject (env : Table String String) : Surroundings where
  look path := if path = ↑"./.schema-publisher.yaml" then .text "version: \"2.0\"\n" else .absent
  home := none
  env
  newId := "anonymous"

/-- A variable that gives the publisher's id. -/
def idAlone : Table String String := .ofList [("SCHEMA_PUBLISHER_ID", "billing")]

/-- The version of the files decides where nothing else is set. -/
theorem version_settings_newerProject :
    ∃ t, (newerProject ∅).settings "." (Settings.ofArguments? none none) = .ok t ∧
      t.version = "2.0" ∧ t.versionWarnings ≠ [] := by
  have hfile : (newerProject ∅).settingsOf "." = .ok (some { version := "2.0" }) :=
    ok_of_toOption (by decide +kernel)
  obtain ⟨t, ht, hversion, -, -, hwarnings⟩ :=
    @version_settings (newerProject ∅) "." none none none _ rfl hfile
  refine ⟨t, ht, hversion, ?_⟩
  rw [Ne, hwarnings]
  decide

/-- **A version is replaced**: with the id of the publisher in the environment, the version of the
project's file disappears, and the warning about it with it. -/
theorem version_replaced :
    ((newerProject ∅).settings "." none).toOption.map (fun t => (t.version, t.check.warnings.length))
        = some ("2.0", 1) ∧
      ((newerProject idAlone).settings "." none).toOption.map
        (fun t => (t.version, t.check.warnings.length)) = some ("1.0", 0) := by
  constructor <;> decide +kernel

end CommandLine.Surroundings
end SchemaHerald
