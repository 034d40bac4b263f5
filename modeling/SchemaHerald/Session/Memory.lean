import SchemaHerald.MemoryRegistry
import SchemaHerald.Session

/-!
# The registry in memory as a client

The registry in memory answers at once.
-/
namespace SchemaHerald

/-- The answer of the registry in memory to a publish. -/
def MemoryRegistry.answerPublish (m : MemoryRegistry) (shut : Bool) (handle : Handle)
    (definition : Definition) : Answer × MemoryRegistry :=
  match m.publish shut handle definition with
  | .ok (record, m) => (.record record, m)
  | .error cause => (.refused cause, m)

/-- The answer of the registry in memory to an unpublish. -/
def MemoryRegistry.answerUnpublish (m : MemoryRegistry) (registration : Registration) :
    Except Cause Unit × MemoryRegistry :=
  match m.unpublish registration with
  | .ok m => (.ok (), m)
  | .error cause => (.error cause, m)

/-- **The registry in memory as a client**, which takes no time. -/
def Client.memory : Client MemoryRegistry where
  publishDelay _ _ _ := 0
  unpublishDelay _ _ := 0
  publish := MemoryRegistry.answerPublish
  unpublish := MemoryRegistry.answerUnpublish

end SchemaHerald
