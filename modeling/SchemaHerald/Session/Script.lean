import SchemaHerald.MemoryRegistry
import SchemaHerald.Session

/-!
# Scripted registries

A scripted registry does what a script says: which schemas it refuses, at which ones it breaks off,
how long it takes and where it puts what. What the script lets through goes to a registry in memory,
if there is one, or is noted under an id made from the names or from a count.
-/
namespace SchemaHerald

/-- What a scripted registry is to do. Schemas are named without the blanks around them. -/
structure Script where
  /-- Whether ids are counted. -/
  countsIds : Bool := false
  /-- The schemas that are not published. -/
  failPublish : List String := []
  /-- The schemas that are not unpublished. -/
  failUnpublish : List String := []
  /-- The schemas at which a publish breaks off. -/
  breakPublish : List String := []
  /-- How long publishes take, by schema or by `schema@registry`. -/
  publishDelays : Table String Nat := {}
  /-- How long unpublishes take. -/
  unpublishDelays : Table String Nat := {}
  /-- Where schemas can be found. -/
  locations : Table String String := {}
deriving Inhabited

/-- A scripted registry at work. -/
structure Scripted where
  /-- The script, as it is now. -/
  script : Script := {}
  /-- The registry in memory behind it, if there is one. -/
  memory : Option MemoryRegistry := none
  /-- How many ids were counted. -/
  published : Nat := 0
deriving Inhabited

namespace Scripted

/-- The delay of a schema in a registry; the entry that names both wins. -/
def delayOf (delays : Table String Nat) (registry schema : String) : Nat :=
  ((delays.get? s!"{schema}@{registry}").or (delays.get? schema)).getD 0

variable (s : Scripted)

/-- What is noted when there is no registry in memory. -/
def note (handle : Handle) (definition : Definition) : Record where
  registrationId :=
    if s.script.countsIds then s!"id-{s.published + 1}" else s!"{handle.name}/{definition.name}"
  name := definition.name
  location := s.script.locations.get? definition.name
  metadata := definition.metadata

/-- The answer to a publish. -/
def publish (shut : Bool) (handle : Handle) (definition : Definition) : Answer × Scripted :=
  if s.script.breakPublish.contains definition.name then
    (.broken s!"client panicked on {definition.name}", s)
  else if s.script.failPublish.contains definition.name then
    (.refused { text := s!"ECONNREFUSED {handle.name}" }, s)
  else
    match s.memory with
    | none => (.record (s.note handle definition), { s with published := s.published + 1 })
    | some memory =>
      match memory.publish shut handle definition with
      | .error cause => (.refused cause, s)
      | .ok (record, memory) =>
        (.record record, { s with memory := some memory })

/-- The answer to an unpublish. -/
def unpublish (registration : Registration) : Except Cause Unit × Scripted :=
  if s.script.failUnpublish.contains registration.schema then
    (.error { text := "registry unavailable" }, s)
  else
    match s.memory with
    | none => (.ok (), s)
    | some memory =>
      match memory.unpublish registration with
      | .error cause => (.error cause, s)
      | .ok memory => (.ok (), { s with memory := some memory })

end Scripted

/-- **Scripted registries as clients.** -/
def Client.scripted : Client Scripted where
  publishDelay s handle definition :=
    Scripted.delayOf s.script.publishDelays handle.name definition.name
  unpublishDelay s registration :=
    Scripted.delayOf s.script.unpublishDelays registration.registry registration.schema
  publish := Scripted.publish
  unpublish := Scripted.unpublish

end SchemaHerald
