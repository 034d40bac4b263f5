import SchemaHerald.Failure
import SchemaHerald.Settings.Document
import SchemaHerald.Settings.Layer

/-!
# What commands see and what they leave behind

A command looks at files and variables around it and leaves a transcript: what it prints and with
which code it exits. Before that it may ask for one file to be written.
-/
namespace SchemaHerald.CommandLine

/-- What a command prints and the code it exits with. -/
structure Transcript where
  /-- The exit code; zero means success. -/
  exit : Nat
  /-- What is printed. -/
  out : String := ""
  /-- What is printed about errors. -/
  err : String := ""
deriving DecidableEq, Repr, Inhabited

/-- A line of text. -/
def line (text : String) : String := text ++ "\n"

/-- The report of a failure, with its parts and with advice. -/
def failureReport (f : Failure) : String :=
  line s!"\n❌ [{f.code}] {f.message}" ++
    String.join (f.parts.map fun part => line s!"  - {part.message}") ++
    String.join (f.actions.map fun action => line s!"  → {action}")

/-- The report of an error that ends a command. -/
def errorReport (message : String) : String := line "\n❌ Error" ++ line message

/-- **What a command answers** to what it finds. -/
inductive Response
  /-- It is done. -/
  | done (transcript : Transcript)
  /-- A text is to be written to a file, and what comes of that is told. -/
  | write (path : Text.Raw) (content : String) (told : Except String Unit → Transcript)

/-- What a command finds around it. Variables and directories that come from them are texts. -/
structure Surroundings where
  /-- What is found at a path. -/
  look : Text.Raw → FileState
  /-- The home directory, if there is one. -/
  home : Option String
  /-- The environment variables. -/
  env : Table String String
  /-- An id for a publisher that is not given one. -/
  newId : String

namespace Surroundings

variable (s : Surroundings)

/-- The name of settings files. -/
def settingsFile : String := ".schema-publisher.yaml"

/-- The path of the settings file of a directory. -/
def settingsPath (directory : Text.Raw) : Text.Raw := Path.join directory settingsFile

/-- The settings of a directory, if it has some. -/
def settingsOf (directory : Text.Raw) : Except Failure (Option Settings) :=
  Settings.ofFile? (s.look (settingsPath directory))

/-- **The settings in force** for a project, with the layer of the command line on top. -/
def settings (project : Text.Raw) (arguments : Option Settings) : Except Failure Settings := do
  let home ← match s.home with
    | some directory => s.settingsOf directory
    | none => .ok none
  let project ← s.settingsOf project
  return Settings.ofSources home project s.env arguments

end Surroundings
end SchemaHerald.CommandLine
