import SchemaHerald.CommandLine.Arguments
import SchemaHerald.CommandLine.Perform
import SchemaHerald.Text.Uuid

/-!
# The program

Looks at the files that a command line is about, lets the library decide, and prints and writes what
comes of it. Files whose paths are no texts are out of reach from here.
-/
namespace SchemaHerald.CommandLine

open Text

/-- What is found at a path. -/
def lookAt (path : Raw) : IO FileState := do
  let some path := path.text? | return .absent
  try
    match String.fromUTF8? (← IO.FS.readBinFile path) with
    | some content => return .text content
    | none => return .binary
  catch
    | .inappropriateType _ 21 _ => return .directory
    | .inappropriateType .. => return .blocked
    | _ => return .absent

/-- The paths that a command line is about. -/
def paths (home : Option String) : Invocation → List Raw
  | .publish options => settingsPaths (options.project.getD here) ++ options.files
  | .check project => settingsPaths project
  | .init project _ => [Surroundings.settingsPath project]
  | .help | .version | .misuse => []
where
  settingsPaths (project : Raw) : List Raw :=
    (project :: home.toList.map Raw.ofText).map Surroundings.settingsPath

/-- The arguments of the process, as they were given. -/
def processArguments : IO (List Raw) := do
  let octets := (← IO.FS.readBinFile "/proc/self/cmdline").data.toList
  -- there is a null octet behind each argument, and the name of the program comes first
  return (octets.splitOn 0).dropLast.tail.map .mk

/-- The environment variables of the process. -/
def environment : IO (Table String String) := do
  let content := (String.fromUTF8? (← IO.FS.readBinFile "/proc/self/environ")).getD ""
  return Table.ofList ((content.splitOn "\x00").filterMap splitEquals?)

/-- What a command line finds around it. -/
def surroundings (invocation : Invocation) : IO Surroundings := do
  let env ← environment
  let home := env.get? "HOME"
  let found ← (paths home invocation).mapM fun path => return (path, ← lookAt path)
  let octets ← IO.getRandomBytes 16
  return {
    look := fun path => (found.lookup path).getD .absent
    home, env
    newId := Uuid.text (octets.toList.map UInt8.toNat) }

/-- Writes a text to a file, if that is possible. -/
def writeTo (path : Raw) (content : String) : IO (Except String Unit) := do
  let some path := path.text? | return .error (FileState.absent.fault?.getD "")
  try
    IO.FS.writeFile path content
    return .ok ()
  catch e => return .error (toString e)

/-- Does what a command line asks for. -/
def execute (invocation : Invocation) : IO Transcript := do
  match respond (← surroundings invocation) invocation with
  | .done transcript => return transcript
  | .write path content told => return told (← writeTo path content)

end SchemaHerald.CommandLine

/-- Runs the program. -/
def main : IO UInt32 := do
  let arguments ← SchemaHerald.CommandLine.processArguments
  let transcript ←
    SchemaHerald.CommandLine.execute (SchemaHerald.CommandLine.Invocation.ofArguments arguments)
  IO.print transcript.out
  IO.eprint transcript.err
  return UInt32.ofNat transcript.exit
