import SchemaHerald.CommandLine.Transcript
import SchemaHerald.Settings.Check

/-!
# The command `check`

Reports what is wrong with the settings in force and lists the registries that they describe.
-/
namespace SchemaHerald.CommandLine

/-- The list of the registries that settings describe. -/
def registryList (settings : Settings) : String :=
  if settings.registries.isEmpty then ""
  else line "\nRegistries:" ++
    String.join (settings.registries.keys.map fun name => line s!"  - {name}")

/-- **Checks** the settings of a project. -/
def check (s : Surroundings) (project : Text.Raw) : Transcript :=
  let found := (s.look (Surroundings.settingsPath project)).isThere
  let head := line "\n🔍 Configuration Check\n" ++
    if found then "" else line s!"⚠️  No {Surroundings.settingsFile} found, checking defaults"
  match s.settings project none with
  | .error failure => { exit := 1, out := head, err := failureReport failure }
  | .ok settings =>
    let report := settings.check
    { exit := if report.valid then 0 else 1
      out := head ++ line report.text ++ registryList settings ++ line "" }

end SchemaHerald.CommandLine
