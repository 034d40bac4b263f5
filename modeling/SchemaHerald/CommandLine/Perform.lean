import SchemaHerald.CommandLine.Arguments
import SchemaHerald.CommandLine.Check
import SchemaHerald.CommandLine.Init
import SchemaHerald.CommandLine.Publish
import SchemaHerald.Files.Tree

/-!
# Command lines at work

`respond` decides what is answered to a command line. `perform` does that in a tree of files: it gives
the transcript and the files as they are afterwards.
-/
namespace SchemaHerald.CommandLine

/-- What is printed when the version is asked for. -/
def versionLine : String := line "schema-publisher 0.1.0"

/-- **The answer** to what is asked for. -/
def respond (s : Surroundings) : Invocation → Response
  | .publish options => .done (publish s options).1
  | .check project => .done (check s project)
  | .init project force => init s project force
  | .version => .done { exit := 0, out := versionLine }
  | .help => .done { exit := 0 }
  | .misuse => .done { exit := 2 }

/-- What a command finds in a tree of files. -/
structure Scene where
  /-- The files. -/
  files : FileTree
  /-- The working directory. -/
  working : Place
  /-- The home directory, if there is one. -/
  home : Option String
  /-- The environment variables. -/
  env : Table String String
  /-- An id for a publisher that is not given one. -/
  newId : String

namespace Scene

variable (s : Scene)

/-- What a command sees. -/
def surroundings : Surroundings where
  look := s.files.look s.working
  home := s.home
  env := s.env
  newId := s.newId

/-- **Does** what is asked for. -/
def perform (invocation : Invocation) : Transcript × Scene :=
  match respond s.surroundings invocation with
  | .done transcript => (transcript, s)
  | .write path content told =>
    match s.files.write s.working path content with
    | .ok files => (told (.ok ()), { s with files })
    | .error reason => (told (.error reason), s)

end Scene
end SchemaHerald.CommandLine
