import SchemaHerald.Failure
import SchemaHerald.Registration

/-!
# The registry in memory

A registry that keeps its records in the memory of the process. A record is found by the registry
that it was published to and by its id.
-/
namespace SchemaHerald

/-- A record and where it was published to. -/
structure StoredRecord where
  /-- The registry's name. -/
  registry : String
  /-- The record. -/
  record : Record
deriving Inhabited

/-- Whether a stored record is the one of an id in a registry. -/
def StoredRecord.isAt (s : StoredRecord) (registry id : String) : Bool :=
  s.registry == registry && s.record.registrationId == id

/-- **A registry in memory.** -/
structure MemoryRegistry where
  /-- What locations start with instead of the registry's address. -/
  baseUrl : Option String := none
  /-- The records, oldest first. -/
  stored : List StoredRecord := []
  /-- How many records were made. -/
  made : Nat := 0
deriving Inhabited

namespace MemoryRegistry

/-- The option that gives the base of locations. -/
def baseUrlOption : String := "baseUrl"

/-- A text without the slashes at its end. -/
def dropSlashes (s : String) : String :=
  String.ofList (s.toList.reverse.dropWhile (· == '/')).reverse

/-- An empty registry with the options of a backend; options that it does not know mean nothing. -/
def ofOptions (options : Table String String) : MemoryRegistry where
  baseUrl := (options.get? baseUrlOption).map dropSlashes

variable (m : MemoryRegistry)

/-- The records of one registry by name; among records of one name the oldest first. -/
def records (registry : String) : List Record :=
  ((m.stored.filter (·.registry == registry)).map (·.record)).mergeSort fun a b => a.name ≤ b.name

/-- Where a schema published through a handle can be found. -/
def location (handle : Handle) (schema : String) : String :=
  match m.baseUrl with
  | some base => s!"{base}/{schema}"
  | none => s!"local://{handle.options.announceAddress.getD handle.name}/{schema}"

/-- The id of the next record. No two records get the same one. -/
def nextId : String := s!"uuid-{m.made + 1}"

/-- What a publish through a handle notes. -/
def recordFor (handle : Handle) (definition : Definition) : Record where
  registrationId := m.nextId
  name := definition.name
  location := some (m.location handle definition.name)
  metadata := definition.metadata

/-- **Publishes** through a handle: notes a record. A handle that is shut is refused. -/
def publish (shut : Bool) (handle : Handle) (definition : Definition) :
    Except Cause (Record × MemoryRegistry) :=
  if shut then .error { text := s!"registry handle '{handle.name}' is closed" }
  else
    let record := m.recordFor handle definition
    .ok (record, { m with stored := m.stored ++ [⟨handle.name, record⟩], made := m.made + 1 })

/-- **Unpublishes** a registration: removes its record, which must be there. -/
def unpublish (registration : Registration) : Except Cause MemoryRegistry :=
  let registry := registration.registry
  let id := registration.id
  if m.stored.any (·.isAt registry id) then
    .ok { m with stored := m.stored.filter fun s => !s.isAt registry id }
  else .error { text := s!"record '{id}' not found in registry '{registry}'" }

end MemoryRegistry

/-- **The registry that options ask for.** Without a backend it is the one in memory; a backend that
is not known is a failure. -/
def RegistryOptions.openRegistry (o : RegistryOptions) : Except Failure MemoryRegistry :=
  match o.backend with
  | none => .ok {}
  | some backend =>
    match BackendKind.ofName? backend.name with
    | some .memory => .ok (.ofOptions backend.options)
    | none =>
      let supported := BackendKind.supported
      .error (.settings
        s!"registry '{o.name}' uses unknown backend '{backend.name}' (supported: {supported})")

end SchemaHerald
