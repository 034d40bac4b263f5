import Mathlib.Data.Option.Basic
import SchemaHerald.CommandLine.Transcript
import SchemaHerald.Proofs.LayeredSettings
import SchemaHerald.Proofs.Numerals

/-!
# Which layer decides a setting

Settings come from the command line, the environment, the project's file and the file in the home
directory, in this order, and from the defaults. `Precedence` says for every setting by itself where
it comes from, and `precedence_settings` proves it of the settings in force, for all files that can
be read, all variables and all options.

The registries of the files are not merged: a registry has the whole entry of the project or the
whole entry of the home directory. Only the values of its backend's options change, where they refer
to variables.
-/
namespace SchemaHerald

/-! ## Entries with their references expanded -/

/-- A backend that differs from another one only in the references of its option values. -/
structure Backend.Expands (env : Table String String) (b b' : Backend) : Prop where
  name : b'.name = b.name
  options : ∀ key, b'.options.get? key = (b.options.get? key).map (Reference.expand env)

/-- Registry options that differ from others only in the references of the option values of the
backend. -/
structure RegistryOptions.Expands (env : Table String String) (o o' : RegistryOptions) : Prop where
  name : o'.name = o.name
  announceAddress : o'.announceAddress = o.announceAddress
  backend : Option.Rel (Backend.Expands env) o.backend o'.backend

theorem Backend.expands_expand (env : Table String String) (b : Backend) :
    b.Expands env (b.expand env) :=
  ⟨rfl, Table.get?_map (Reference.expand env) b.options⟩

theorem RegistryOptions.expands_expand (env : Table String String) (o : RegistryOptions) :
    o.Expands env (o.expand env) := by
  refine ⟨rfl, rfl, ?_⟩
  rcases hb : o.backend with _ | b
  · simp only [RegistryOptions.expand, hb, Option.map_none]
    exact .none
  · simp only [RegistryOptions.expand, hb, Option.map_some]
    exact .some (b.expands_expand env)

/-- **Expansion** finds under every name what was there, with its references expanded. -/
theorem Settings.described_expand (env : Table String String) (s : Settings) (name : String) :
    Option.Rel (RegistryOptions.Expands env) (s.described? name) ((s.expand env).described? name) := by
  have hget : (s.expand env).described? name = (s.described? name).map (·.expand env) :=
    Table.get?_map _ s.registries name
  rw [hget]
  rcases s.described? name with _ | options
  · exact .none
  · exact .some (options.expands_expand env)

/-! ## Precedence -/

namespace Settings

/-- **Where each setting comes from**, given what the options and the variables say and what the
files hold. Each one is found by itself, whatever the others are. -/
structure Precedence (env : Table String String) (target : Option String) (limit : Option Nat)
    (home project : Option Settings) (s : Settings) : Prop where
  /-- The id: the variable, the project, the home directory. -/
  id : s.id? = (env.get? idVariable).or ((project.bind id?).or (home.bind id?))
  /-- The registry to use: the option, the variable, the project, the home directory. -/
  target : s.target? =
    target.or ((env.get? registryVariable).or ((project.bind target?).or (home.bind target?)))
  /-- The limit: the option, the variable if it holds a count, the project, the home directory. -/
  maxConcurrency : ∃ variableLimit : Option Nat,
    (∀ n, variableLimit = some n ↔
      ∃ value, env.get? maxConcurrencyVariable = some value ∧ Text.Denotes value n) ∧
    s.maxConcurrency? =
      limit.or (variableLimit.or ((project.bind maxConcurrency?).or (home.bind maxConcurrency?)))
  /-- The timeout: the project, the home directory, and 30 seconds otherwise. -/
  timeoutSecs : s.timeoutSecs? =
    some (((project.bind timeoutSecs?).or (home.bind timeoutSecs?)).getD 30)
  /-- A registry: the whole entry of the project, or else the whole one of the home directory, or
  none at all; but for references in the option values of its backend. -/
  described : ∀ name, Option.Rel (RegistryOptions.Expands env)
    ((project.bind (described? name)).or (home.bind (described? name))) (s.described? name)

variable (env : Table String String) (target : Option String) (limit : Option Nat)
variable (home project : Option Settings)

/-- **A layered setting of the settings in force**, before references are expanded. -/
theorem Layered.sources {α : Type} {view : Settings → Option α} (hv : Layered view)
    (hexpand : ∀ s : Settings, view (s.expand env) = view s) :
    view (ofSources home project env (ofArguments? target limit)) =
      ((ofParts? none target limit).bind view).or
        (((ofParts? (env.get? idVariable) (env.get? registryVariable) (environmentLimit? env)).bind
          view).or ((project.bind view).or ((home.bind view).or (view Settings.default)))) := by
  rw [ofSources, hexpand, hv.ofLayers, ofEnvironment?_eq_ofParts?, ofArguments?_eq_ofParts?]

theorem environmentLimit?_eq_some_iff {env : Table String String} {n : Nat} :
    environmentLimit? env = some n ↔
      ∃ value, env.get? maxConcurrencyVariable = some value ∧ Text.Denotes value n := by
  simp only [environmentLimit?, Option.bind_eq_some_iff, Text.count?_eq_some_iff]

/-- The limit of the variable, spelled out. -/
theorem Precedence.maxConcurrency_eq {env : Table String String} {target : Option String}
    {limit : Option Nat} {home project : Option Settings} {s : Settings}
    (h : Precedence env target limit home project s) :
    s.maxConcurrency? = limit.or ((environmentLimit? env).or
      ((project.bind maxConcurrency?).or (home.bind maxConcurrency?))) := by
  obtain ⟨variableLimit, hvariable, hlimit⟩ := h.maxConcurrency
  have he : variableLimit = environmentLimit? env :=
    Option.ext fun n => (hvariable n).trans environmentLimit?_eq_some_iff.symm
  rw [hlimit, he]

/-- **Precedence of the layers** in the settings that are put together from them. -/
theorem precedence_ofSources :
    Precedence env target limit home project
      (ofSources home project env (ofArguments? target limit)) where
  id := by
    rw [layered_id.sources env target limit home project fun _ => rfl, id_ofParts?, id_ofParts?]
    simp [id?, Settings.default]
  target := by
    rw [layered_target.sources env target limit home project fun _ => rfl, target_ofParts?,
      target_ofParts?]
    simp [target?, Settings.default]
  maxConcurrency := by
    refine ⟨environmentLimit? env, fun _ => environmentLimit?_eq_some_iff, ?_⟩
    rw [layered_maxConcurrency.sources env target limit home project fun _ => rfl,
      maxConcurrency_ofParts?, maxConcurrency_ofParts?]
    simp [maxConcurrency?, Settings.default, Limits.default]
  timeoutSecs := by
    rw [layered_timeoutSecs.sources env target limit home project fun _ => rfl,
      timeoutSecs_ofParts?, timeoutSecs_ofParts?]
    rcases project.bind timeoutSecs? with _ | n <;> rcases home.bind timeoutSecs? with _ | m <;> rfl
  described := by
    intro name
    -- references are expanded in what the layers give, so look at that first
    let merged := ofLayers (Settings.default :: home.toList ++ project.toList ++
      (ofEnvironment? env).toList ++ (ofArguments? target limit).toList)
    have hmerged : merged.described? name =
        (project.bind (described? name)).or (home.bind (described? name)) := by
      rw [(layered_described name).ofLayers, ofEnvironment?_eq_ofParts?, ofArguments?_eq_ofParts?,
        described_ofParts?, described_ofParts?]
      simp [described?, Settings.default]
    rw [← hmerged]
    exact merged.described_expand env name

end Settings

namespace CommandLine.Surroundings

variable (s : Surroundings)

/-- The settings of the home directory, if there is one and it has some. -/
def homeSettings : Except Failure (Option Settings) :=
  match s.home with
  | some directory => s.settingsOf directory
  | none => .ok none

/-- **The settings in force** are put together from the files that there are. -/
theorem settings_eq {project : Text.Raw} {arguments home file : Option Settings}
    (hhome : s.homeSettings = .ok home) (hfile : s.settingsOf project = .ok file) :
    s.settings project arguments = .ok (Settings.ofSources home file s.env arguments) := by
  have hsettings : s.settings project arguments = do
      let home ← s.homeSettings
      let file ← s.settingsOf project
      return Settings.ofSources home file s.env arguments := by
    unfold settings homeSettings
    rcases s.home with _ | directory <;> rfl
  rw [hsettings, hhome, hfile]
  rfl

/-- **Precedence of the settings in force.** When the files that exist can be read, there are
settings, and each setting comes from the highest layer that gives it. -/
theorem precedence_settings {project : Text.Raw} {target : Option String} {limit : Option Nat}
    {home file : Option Settings} (hhome : s.homeSettings = .ok home)
    (hfile : s.settingsOf project = .ok file) :
    ∃ t, s.settings project (Settings.ofArguments? target limit) = .ok t ∧
      Settings.Precedence s.env target limit home file t :=
  ⟨_, s.settings_eq hhome hfile,
    Settings.precedence_ofSources s.env target limit home file⟩

/-- What can be read off a result by its value alone. -/
theorem ok_of_toOption {α : Type} {result : Except Failure α} {a : α}
    (h : result.toOption = some a) : result = .ok a := by
  rcases result with failure | b
  · cases h
  · rw [Option.some.inj h]

/-- A project with a registry, a home directory with a timeout, and variables for the id, for the
limit and for the registry's token. -/
def billing : Surroundings where
  look path :=
    if path = ↑"/home/.schema-publisher.yaml" then
      .text "version: \"1.0\"\npublish: {timeoutSecs: 5}\n"
    else if path = ↑"./.schema-publisher.yaml" then
      .text <| "version: \"1.0\"\nregistries:\n  main:\n    backend:\n" ++
        "      name: local\n      config:\n        token: ${TOKEN}\n"
    else .absent
  home := some "/home"
  env := .ofList [("SCHEMA_PUBLISHER_ID", "billing"), ("SCHEMA_PUBLISHER_MAX_CONCURRENCY", "+04"),
    ("TOKEN", "secret")]
  newId := "anonymous"

/-- Files of both directories are there, and the registry and the limit are asked for. -/
theorem precedence_settings_billing :
    ∃ home file, billing.homeSettings = .ok home ∧ billing.settingsOf "." = .ok file ∧
      home.isSome ∧ file.isSome ∧
      ∃ t, billing.settings "." (Settings.ofArguments? (some "main") (some 2)) = .ok t ∧
        Settings.Precedence billing.env (some "main") (some 2) home file t := by
  let home : Settings := { version := "1.0", publish := some { timeoutSecs := some 5 } }
  let main : RegistryOptions :=
    { backend := some { name := "local", options := .ofList [("token", "${TOKEN}")] } }
  let file : Settings := { version := "1.0", registries := .ofList [("main", main)] }
  have hhome : billing.homeSettings = .ok (some home) := ok_of_toOption (by decide +kernel)
  have hfile : billing.settingsOf "." = .ok (some file) := ok_of_toOption (by decide +kernel)
  exact ⟨some home, some file, hhome, hfile, rfl, rfl, precedence_settings billing hhome hfile⟩

end CommandLine.Surroundings
end SchemaHerald
