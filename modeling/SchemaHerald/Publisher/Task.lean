import SchemaHerald.Failure
import SchemaHerald.Registration
import SchemaHerald.Text.Quoted

/-!
# Tasks

What a publisher is asked for becomes a task, and so does each part of it that waits by itself: the
publishes of a batch and the unpublishes of a teardown. A task is at one of a few stages, between
which other tasks may run, and ends with an outcome.
-/
namespace SchemaHerald

/-- How the registrations that are left are taken back when the registrar is closed. -/
inductive Teardown
  /-- Each one is unpublished. -/
  | unpublishing
  /-- No registry is called: for the schemas of these names it fails, and the other registrations
  are unregistered or left. -/
  | sweeping (failing : List String) (unregisters : Bool)
deriving DecidableEq, Repr, Inhabited

/-- What a publisher can be asked for. -/
inductive Request
  /-- To publish one schema. -/
  | publish (options : RegistryOptions) (definition : Definition)
  /-- To publish several schemas at once. -/
  | publishAll (options : RegistryOptions) (definitions : List Definition)
  /-- To take one registration back. -/
  | unpublish (registration : Registration)
  /-- To take everything back and take no more. -/
  | close (teardown : Teardown)
  /-- To have the registry called for a publish, without a registration. -/
  | tryPublish (handle : Handle) (definition : Definition)
  /-- To have the registry called for an unpublish, without a registration being removed. -/
  | tryUnpublish (registration : Registration)
deriving Inhabited

/-- How a task ended. -/
inductive Outcome
  /-- A schema was published. -/
  | registered (registration : Registration)
  /-- All schemas of a batch were published; the first one to be done stands first. -/
  | registeredAll (registrations : List Registration)
  /-- It was done, with nothing to show. -/
  | done
  /-- The registry noted something, without a registration. -/
  | recorded (record : Record)
  /-- It failed. -/
  | failed (failure : Failure)
  /-- The registry refused, and no publisher made a failure of it. -/
  | refused (cause : Cause)
  /-- It broke off with a text. -/
  | broken (message : String)
deriving Inhabited

/-- The registration that an outcome is, if it is one. -/
def Outcome.registration? : Outcome → Option Registration
  | .registered registration => some registration
  | _ => none

/-- A batch of publishes. -/
structure Batch where
  /-- The registry's name, without blanks around it. -/
  registry : String
  /-- The tasks of the batch with their schemas' names, in the order of the request. -/
  members : List (Nat × String)
  /-- How many more tasks may publish now, if there is a limit. -/
  permits : Option Nat
  /-- The tasks that wait for a permit, the first to ask standing first. -/
  queue : List Nat := []
  /-- The tasks that have ended, the first to end standing first. -/
  outcomes : List (Nat × Outcome) := []
  /-- Whether the caller has given up on the batch. Its tasks go on all the same. -/
  abandoned : Bool := false
deriving Inhabited

namespace Batch

/-- The greatest number of permits that there can be at once. -/
def mostPermits : Nat := 0x1fffffffffffffff

/-- Whether all tasks have ended. -/
def isComplete (b : Batch) : Bool := b.outcomes.length == b.members.length

/-- The name of the schema of a task. -/
def schemaOf (b : Batch) (task : Nat) : String := (b.members.lookup task).getD ""

/-- What failed about one task, if something did. -/
def part? (b : Batch) (task : Nat) (outcome : Outcome) : Option (Part Failure) :=
  let schema := b.schemaOf task
  match outcome with
  | .failed failure => some ⟨schema, b.registry, failure⟩
  | .broken message =>
    let text := s!"task {task} panicked with message {Text.Quoted.encode message}"
    some ⟨schema, b.registry, .taskLost b.registry schema text⟩
  | _ => none

/-- The registrations made so far. -/
def registrations (b : Batch) : List Registration := b.outcomes.filterMap (·.2.registration?)

/-- What failed so far. -/
def parts (b : Batch) : List (Part Failure) := b.outcomes.filterMap fun e => b.part? e.1 e.2

/-- **The outcome of a batch** that is complete: all registrations, or what failed. -/
def outcome (b : Batch) : Outcome :=
  if b.registrations.length = b.members.length then .registeredAll b.registrations
  else .failed (.partialPublish b.registry b.members.length b.parts)

end Batch

/-- An unpublish of a teardown. -/
structure Removal where
  /-- The task that does it. -/
  task : Nat
  /-- The registration to take back. -/
  registration : Registration
  /-- How it ended, if it has. -/
  outcome : Option Outcome := none
deriving Inhabited

/-- What failed about a removal, if something did. -/
def Removal.part? (r : Removal) : Option (Part Failure) :=
  match r.outcome with
  | some (.failed failure) => some ⟨r.registration.schema, r.registration.registry, failure⟩
  | _ => none

/-- The outcome of taking back `requested` registrations when `parts` of them failed. -/
def Outcome.ofRemovals (requested : Nat) (parts : List (Part Failure)) : Outcome :=
  if parts.isEmpty then .done else .failed (.partialUnpublish requested parts)

/-- A teardown that is under way. -/
structure Drain where
  /-- The registrations that are still to be taken up, in order. -/
  rest : List Registration
  /-- The removals that have begun, in order. -/
  removals : List Removal := []
deriving Inhabited

namespace Drain

/-- Whether every registration was taken up and every removal has ended. -/
def isComplete (d : Drain) : Bool := d.rest.isEmpty && d.removals.all (·.outcome.isSome)

/-- The teardown with the end of one removal noted. -/
def note (d : Drain) (task : Nat) (outcome : Outcome) : Drain :=
  { d with removals := d.removals.map fun r =>
      if r.task = task then { r with outcome := some outcome } else r }

/-- **The outcome of a teardown** that is complete. -/
def outcome (d : Drain) : Outcome :=
  .ofRemovals d.removals.length (d.removals.filterMap Removal.part?)

end Drain

/-- Where a task stands. -/
inductive Stage
  /-- It has not begun. -/
  | asked (request : Request)
  /-- It waits for a permit of its batch. -/
  | queued (options : RegistryOptions) (definition : Definition)
  /-- It was given a permit and has not gone on yet. -/
  | permitted (options : RegistryOptions) (definition : Definition)
  /-- The registry is publishing for it; it has the reservation of the key. -/
  | publishing (key : Key) (handle : Handle) (definition : Definition)
  /-- The registry is unpublishing for it. -/
  | unpublishing (registration : Registration)
  /-- The registry is publishing for it, without a reservation. -/
  | tryingPublish (handle : Handle) (definition : Definition)
  /-- The registry is unpublishing for it, and the registrar is not concerned. -/
  | tryingUnpublish (registration : Registration)
  /-- It waits for the tasks of a batch. -/
  | gathering (batch : Batch)
  /-- It waits until nothing is reserved any more. -/
  | waiting (teardown : Teardown)
  /-- It takes the registrations back. -/
  | draining (drain : Drain)
  /-- It has ended. -/
  | ended (outcome : Outcome)
deriving Inhabited

namespace Stage

/-- How a task ended, if it has. -/
def outcome? : Stage → Option Outcome
  | .ended outcome => some outcome
  | _ => none

/-- The key that a task has reserved. -/
def key? : Stage → Option Key
  | .publishing key _ _ => some key
  | _ => none

/-- Whether a task waits until nothing is reserved any more. -/
def isWaiting : Stage → Bool
  | .waiting _ => true
  | _ => false

end Stage

/-- A task. -/
structure Task where
  /-- Where it stands. -/
  stage : Stage
  /-- The task that it is a part of. -/
  parent : Option Nat := none
deriving Inhabited

/-- What can be seen from outside while tasks run. -/
inductive Entry
  /-- The registry is called to publish for a task. -/
  | publishCall (task : Nat) (handle : Handle) (definition : Definition)
  /-- The registry is called to unpublish for a task. -/
  | unpublishCall (task : Nat) (registration : Registration)
  /-- The listener is told that a registration is live. -/
  | published (registration : Registration)
  /-- The listener is told that a registration was taken back. -/
  | unpublished (registration : Registration)
deriving Inhabited

/-- What the registry answers to a publish. -/
inductive Answer
  /-- What it noted. -/
  | record (record : Record)
  /-- That it refuses. -/
  | refused (cause : Cause)
  /-- Nothing: the call broke off with a text. -/
  | broken (message : String)
deriving Inhabited

end SchemaHerald
