import SchemaHerald.CommandLine.Transcript
import SchemaHerald.Settings.Form
import SchemaHerald.Yaml.Layout

/-!
# The command `init`

Writes settings to a directory that describe one registry, unless there is a settings file already.
-/
namespace SchemaHerald.CommandLine

/-- The settings that are written. -/
def initialSettings : Settings :=
  let name := Settings.defaultRegistryName
  { Settings.default with registries := Table.ofList [(name, .named name)] }

/-- What is printed first. -/
def initHead : String := line "\n🎯 Initialize schema-publisher\n"

/-- What comes of a try to write a settings file. -/
def initDone (path : Text.Raw) : Except String Unit → Transcript
  | .ok () => { exit := 0, out := initHead ++ line s!"✅ Wrote {path.shown}" }
  | .error reason =>
    { exit := 1, out := initHead, err := errorReport s!"failed to write {path.shown}: {reason}" }

/-- **Decides** whether settings are written to a directory, or says why not. -/
def init (s : Surroundings) (project : Text.Raw) (force : Bool) : Response :=
  let path := Surroundings.settingsPath project
  if (s.look path).isThere && !force then
    .done {
      exit := 1
      out := initHead
      err := line s!"⚠️  {path.shown} already exists (use --force to overwrite)" }
  else .write path initialSettings.toValue.toYaml (initDone path)

end SchemaHerald.CommandLine
