/-!
# Failures

Everything that can go wrong for a caller, by cause. Each failure has a code, a text, a verdict on
whether the same operation may succeed when it is tried again, and advice. `Failure.message` is the
one place where the texts are worded.

A failed batch carries one `Part` for each schema that failed, with the failure of that schema.
-/
namespace SchemaHerald

/-- Why a registry refused a call: the text of the refusal and, under it, the texts of what caused
it, nearest first. -/
structure Cause where
  /-- The outermost text, the one that is shown. -/
  text : String
  /-- The texts of the causes beneath it. -/
  beneath : List String := []
deriving DecidableEq, Repr, Inhabited

/-- All texts of a cause, outermost first. -/
def Cause.chain (c : Cause) : List String := c.text :: c.beneath

/-- What happened to one schema of a batch. -/
structure Part (ε : Type) where
  /-- The schema's name without blanks around it. -/
  schema : String
  /-- The registry that the batch was for. -/
  registry : String
  /-- What went wrong. -/
  failure : ε
deriving Repr, Inhabited

/-- **What can go wrong**, by cause. -/
inductive Failure
  /-- An argument is not acceptable. -/
  | invalidArgument (field message : String)
  /-- A batch has no schemas. -/
  | nothingToPublish
  /-- The key is live already, or a publish of it is under way. -/
  | duplicate (registry schema : String)
  /-- The registrar takes no more reservations. -/
  | registrarClosed
  /-- The registry refused a call. -/
  | remote (registry schema : String) (cause : Cause)
  /-- A task of a batch ended without a result. -/
  | taskLost (registry schema message : String)
  /-- Some schemas of a batch were not published. -/
  | partialPublish (registry : String) (requested : Nat) (failed : List (Part Failure))
  /-- Some registrations were not taken back when the registrar was closed. -/
  | partialUnpublish (requested : Nat) (failed : List (Part Failure))
  /-- The settings cannot be used. -/
  | settings (message : String)
deriving Repr, Inhabited

namespace Failure

/-- The short name of a kind of failure. -/
def code : Failure → String
  | .invalidArgument .. => "INVALID_ARGUMENT"
  | .nothingToPublish => "NOTHING_TO_PUBLISH"
  | .duplicate .. => "DUPLICATE_PUBLISH"
  | .registrarClosed => "REGISTRAR_CLOSED"
  | .remote .. => "REMOTE_FAILURE"
  | .taskLost .. => "TASK_FAILED"
  | .partialPublish .. => "PARTIAL_PUBLISH"
  | .partialUnpublish .. => "PARTIAL_UNPUBLISH"
  | .settings _ => "CONFIG_ERROR"

/-- The names of the schemas that failed, in order. -/
def failedNames (failed : List (Part Failure)) : String :=
  ", ".intercalate (failed.map (·.schema))

/-- The text of a failure. -/
def message : Failure → String
  | .invalidArgument field message => s!"Invalid argument '{field}': {message}"
  | .nothingToPublish => "Nothing to publish. No schema definitions provided"
  | .duplicate registry schema => s!"[{registry}] Schema '{schema}' was already published"
  | .registrarClosed => "Schema registrar is closed"
  | .remote registry schema cause =>
    s!"[{registry}] Registry operation failed for schema '{schema}': {cause.text}"
  | .taskLost registry schema message =>
    s!"[{registry}] Publish task for schema '{schema}' did not complete: {message}"
  | .partialPublish registry requested failed =>
    s!"[{registry}] Published {requested - failed.length} of {requested} schemas; failed: " ++
      failedNames failed
  | .partialUnpublish requested failed =>
    s!"Unpublished {requested - failed.length} of {requested} schemas; failed: " ++
      failedNames failed
  | .settings message => s!"Configuration error: {message}"

/-- The registry that a failure is about, if it is about one. -/
def registry? : Failure → Option String
  | .duplicate registry _ | .remote registry _ _ | .taskLost registry _ _
  | .partialPublish registry _ _ => some registry
  | .invalidArgument .. | .nothingToPublish | .registrarClosed | .partialUnpublish ..
  | .settings _ => none

/-- The parts that failed, for a failure of several schemas. -/
def parts : Failure → List (Part Failure)
  | .partialPublish _ _ failed | .partialUnpublish _ failed => failed
  | _ => []

mutual

/-- **Retrying**: whether the same operation may succeed later. A failure of several schemas may, if
that of one of them may. -/
def recoverable : Failure → Bool
  | .remote .. | .taskLost .. => true
  | .partialPublish _ _ failed | .partialUnpublish _ failed => anyRecoverable failed
  | .invalidArgument .. | .nothingToPublish | .duplicate .. | .registrarClosed
  | .settings _ => false

/-- Whether one of the parts may succeed later. -/
def anyRecoverable : List (Part Failure) → Bool
  | [] => false
  | part :: rest => partRecoverable part || anyRecoverable rest

/-- Whether a part may succeed later. -/
def partRecoverable : Part Failure → Bool
  | ⟨_, _, failure⟩ => failure.recoverable

end

/-- What a user can do about a failure. -/
def actions : Failure → List String
  | .invalidArgument .. => ["Provide a non-empty registry name and schema name"]
  | .nothingToPublish => ["Pass at least one schema to publish"]
  | .duplicate .. =>
    ["Unpublish the existing registration first", "Publish to a different registry"]
  | .registrarClosed => ["Create a new publisher; a closed registrar cannot be reused"]
  | .remote .. => ["Check that the registry is reachable", "Retry the operation"]
  | .taskLost .. => ["Check the logs for a panic in the registry client"]
  | .partialPublish .. =>
    ["Inspect the per-schema failures",
     "Retry only the failed schemas; succeeded schemas remain published"]
  | .partialUnpublish .. =>
    ["Inspect the per-schema failures",
     "Remove the remaining records from the registry manually"]
  | .settings _ => ["Check .schema-publisher.yaml"]

/-- The chain of texts that caused a failure, outermost first. -/
def causes : Failure → List String
  | .remote _ _ cause => cause.chain
  | _ => []

theorem anyRecoverable_eq_any (failed : List (Part Failure)) :
    anyRecoverable failed = failed.any (·.failure.recoverable) := by
  induction failed with
  | nil => simp [anyRecoverable]
  | cons part rest ih =>
    obtain ⟨_, _, failure⟩ := part
    simp [anyRecoverable, partRecoverable, ih]

end Failure

/-- The line that reports one failed schema. -/
def Part.message (part : Part Failure) : String :=
  s!"{part.schema}@{part.registry}: {part.failure.message}"

end SchemaHerald
