import SchemaHerald.CommandLine.Arguments
import SchemaHerald.CommandLine.Transcript
import SchemaHerald.Session.Memory

/-!
# The command `publish`

Publishes files to a registry, reports what came of it, and takes everything back in the end. The
name of a file without its extension is the name of the schema.
-/
namespace SchemaHerald.CommandLine

/-- What keeps a command from its work. -/
inductive Trouble
  /-- An error that ends it. -/
  | fatal (message : String)
  /-- A failure that it reports. -/
  | reported (failure : Failure)
deriving Inhabited

/-- The report of a trouble. -/
def Trouble.report : Trouble → String
  | .fatal message => errorReport message
  | .reported failure => failureReport failure

/-- A text taken apart at its first equals sign. -/
def splitEquals? (s : String) : Option (String × String) :=
  match s.toList.dropWhile (· != '=') with
  | _ :: value => some (String.ofList (s.toList.takeWhile (· != '=')), String.ofList value)
  | [] => none

/-- The metadata that entries of the form `key=value` give; blanks around both do not count, and of
several entries for a key the last one does. -/
def readMetadata (entries : List String) : Except Trouble Metadata :=
  entries.foldlM (fun metadata entry =>
    match splitEquals? entry with
    | some (key, value) => .ok (metadata.insert (Text.trim key) (.text (Text.trim value)))
    | none => .error (.fatal s!"metadata entry '{entry}' is not KEY=VALUE")) ({} : Metadata)

/-- The schema in a file, with metadata. -/
def readSchema (s : Surroundings) (metadata : Metadata) (file : Text.Raw) :
    Except Trouble Definition :=
  match (s.look file).read with
  | .error reason => .error (.fatal s!"failed to read {file.shown}: {reason}")
  | .ok document =>
    match Path.stem? file with
    | some name => .ok { schema := { name, document }, metadata }
    | none => .error (.fatal s!"cannot derive a schema name from {file.shown}")

/-- Everything that is needed to publish. -/
structure Job where
  /-- The registry's name, as it was given. -/
  registry : String
  /-- How to reach the registry. -/
  options : RegistryOptions
  /-- The registry. -/
  memory : MemoryRegistry
  /-- The schemas. -/
  definitions : List Definition
  /-- The id of the publisher. -/
  publisher : String
  /-- How many publishes may be under way at once, if there is a limit. -/
  limit : Option Nat
  /-- How many seconds the batch may take. -/
  timeout : Nat
deriving Inhabited

namespace Job

/-- How many seconds a batch may take when nothing is said about it. -/
def usualTimeout : Nat := 30

/-- Prepares to publish: the settings come first, then the registry, the metadata and the files. -/
def prepare (s : Surroundings) (o : PublishOptions) : Except Trouble Job := do
  let arguments := Settings.ofArguments? o.registry o.maxConcurrency
  let settings ← (s.settings (o.project.getD here) arguments).mapError fun f => .fatal f.message
  let registry := settings.defaultRegistry
  let options := settings.registryOptions registry
  let limits := settings.publish.getD .default
  let memory ← options.openRegistry.mapError .reported
  let metadata ← readMetadata o.metadata
  let definitions ← o.files.mapM (readSchema s metadata)
  return {
    registry, options, memory, definitions
    publisher := (settings.publisher.bind (·.id)).getD s.newId
    limit := limits.maxConcurrency
    timeout := limits.timeoutSecs.getD usualTimeout }

variable (j : Job)

/-- A publisher that has not done anything yet. -/
def start : Session MemoryRegistry where
  publisher := .fresh j.publisher false j.limit
  state := j.memory

/-- **Publishes the batch**: gives what came of it, if it came in time. The batch is given up when
the time is over. -/
def publish : Option Outcome × Session MemoryRegistry :=
  let (task, session) := j.start.ask (.publishAll j.options j.definitions)
  let session := session.await .memory task (some (j.timeout * 1000))
  match session.publisher.outcome? task with
  | some outcome => (some outcome, session)
  | none => (none, session.become (session.publisher.abandon task))

/-- **Takes everything back.** -/
def takeBack (session : Session MemoryRegistry) : Option Outcome × Session MemoryRegistry :=
  let (task, session) := session.ask (.close .unpublishing)
  let session := session.await .memory task
  (session.publisher.outcome? task, session)

/-- What is printed before the batch begins. -/
def head : String := line s!"Registry: {j.registry}" ++ line s!"Publisher: {j.publisher}\n"

/-- The line for one registration. -/
def registrationLine (r : Registration) : String :=
  let location := r.record.location.getD "-"
  line s!"  ✅ {r.schema} ({location})"

/-- What is printed about a batch. -/
def report : Option Outcome → Transcript
  | some (.registeredAll registrations) =>
    { exit := 0
      out := String.join (registrations.map registrationLine) ++
        line s!"\n✅ Published {registrations.length} schemas" }
  | some (.failed failure) => { exit := 1, err := failureReport failure }
  | some (.broken message) => { exit := 101, err := line message }
  | some _ | none =>
    { exit := 1, err := line s!"\n❌ Publishing timed out after {j.timeout}s" }

/-- What is printed when everything was to be taken back. -/
def farewell : Option Outcome → Transcript
  | some (.failed failure) => { exit := 1, err := failureReport failure }
  | _ =>
    { exit := 0
      out := line s!"🧹 Unpublished all schemas and closed registry '{j.registry}'" }

/-- What is printed when the batch has broken off. -/
def brokenOff (batch : Option Outcome) : Transcript :=
  let report := j.report batch
  { report with out := j.head ++ report.out }

/-- What is printed when everything was to be taken back after the batch. -/
def conclude (batch last : Option Outcome) : Transcript :=
  let report := j.report batch
  let farewell := j.farewell last
  { exit := if farewell.exit = 0 then report.exit else farewell.exit
    out := j.head ++ report.out ++ farewell.out
    err := report.err ++ farewell.err }

/-- **Does the job**: gives what is printed, and the publisher as it is left. A batch that breaks off
takes the program with it; after any other one everything is taken back. -/
def run : Transcript × Session MemoryRegistry :=
  let (batch, session) := j.publish
  match batch with
  | some (.broken _) => (j.brokenOff batch, session)
  | _ =>
    let (last, session) := takeBack session
    (j.conclude batch last, session)

end Job

/-- What is printed first. -/
def banner : String := line "\n📦 schema-publisher\n"

/-- **Publishes** files: gives what is printed, and the publisher as it is left if there was one. -/
def publish (s : Surroundings) (o : PublishOptions) :
    Transcript × Option (Session MemoryRegistry) :=
  match Job.prepare s o with
  | .error trouble => ({ exit := 1, out := banner, err := trouble.report }, none)
  | .ok job =>
    let (done, session) := job.run
    ({ done with out := banner ++ done.out }, some session)

end SchemaHerald.CommandLine
